import Mathlib.Algebra.Group.Int.Defs
import Mathlib.Algebra.GroupWithZero.Nat
import Mathlib.Data.List.TakeWhile

/-! A block of memory as a list of cells, written in ranges, and strings that end
before the first terminator. Behind the block every cell is taken to hold the
terminator. -/

set_option autoImplicit false

namespace Library.Memory

variable {Cell : Type}

def write (memory : List Cell) (offset : Nat) (cells : List Cell) : List Cell :=
  memory.take offset ++ (cells ++ memory.drop (offset + cells.length))

/-- A write of as many cells as stood there replaces them. -/
theorem write_append (before cells after : List Cell) {old : List Cell}
    (same : old.length = cells.length) :
    write (before ++ (old ++ after)) before.length cells = before ++ (cells ++ after) := by
  rw [write, List.take_left, ← same, ← List.append_assoc before old after, ← List.length_append,
    List.drop_left]

theorem take_write_of_le {memory cells : List Cell} {offset count : Nat} (before : count ≤ offset)
    (inside : offset ≤ memory.length) :
    (write memory offset cells).take count = memory.take count := by
  rw [write, List.take_append_of_le_length (by rw [List.length_take]; omega), List.take_take,
    Nat.min_eq_left before]

theorem drop_write {memory cells : List Cell} {offset : Nat} (inside : offset ≤ memory.length) :
    (write memory offset cells).drop offset =
      cells ++ memory.drop (offset + cells.length) := by
  rw [write, List.drop_left' (by rw [List.length_take, Nat.min_eq_left inside])]

theorem length_write {memory cells : List Cell} {offset : Nat}
    (inside : offset + cells.length ≤ memory.length) :
    (write memory offset cells).length = memory.length := by
  simp only [write, List.length_append, List.length_take, List.length_drop]
  omega

theorem getElem?_write {memory cells : List Cell} {offset : Nat}
    (inside : offset + cells.length ≤ memory.length) (index : Nat) :
    (write memory offset cells)[index]? =
      if offset ≤ index ∧ index < offset + cells.length then cells[index - offset]?
      else memory[index]? := by
  have start : (memory.take offset).length = offset := by
    rw [List.length_take]
    omega
  rw [write]
  by_cases before : index < offset
  · rw [if_neg (by omega), List.getElem?_append_left (by omega), List.getElem?_take_of_lt before]
  · rw [List.getElem?_append_right (by omega), start]
    by_cases within : index < offset + cells.length
    · rw [if_pos (by omega), List.getElem?_append_left (by omega)]
    · rw [if_neg (by omega), List.getElem?_append_right (by omega), List.getElem?_drop]
      congr 1
      omega

variable [DecidableEq Cell] (terminator : Cell)

def string (memory : List Cell) : List Cell := memory.takeWhile (· ≠ terminator)

/-- What is written for a string whose length is also the number of cells to
write: after a terminator there are only terminators. -/
def stringCells (value : List Cell) : List Cell :=
  string terminator value ++
    List.replicate (value.length - (string terminator value).length) terminator

/-- `strncpy`: a shorter string is padded with terminators, a longer one is cut and gets
none. -/
def strncpy (count : Nat) (value : List Cell) : List Cell :=
  (string terminator value ++ List.replicate count terminator).take count

variable {terminator}

theorem length_strncpy (count : Nat) (value : List Cell) :
    (strncpy terminator count value).length = count := by
  rw [strncpy, List.length_take, List.length_append, List.length_replicate]
  omega

theorem length_string_le (value : List Cell) :
    (string terminator value).length ≤ value.length :=
  (List.takeWhile_prefix _).length_le

theorem length_stringCells (value : List Cell) :
    (stringCells terminator value).length = value.length := by
  have shorter : (string terminator value).length ≤ value.length := length_string_le value
  rw [stringCells, List.length_append, List.length_replicate]
  omega

theorem string_of_not_mem {value : List Cell} (absent : terminator ∉ value) :
    string terminator value = value := by
  refine List.takeWhile_eq_self_iff.mpr fun cell member => ?_
  simpa using fun same : cell = terminator => absent (same ▸ member)

theorem string_append_of_not_mem {value : List Cell} (absent : terminator ∉ value)
    (rest : List Cell) : string terminator (value ++ rest) = value ++ string terminator rest := by
  refine List.takeWhile_append_of_pos fun cell member => ?_
  simpa using fun same : cell = terminator => absent (same ▸ member)

theorem not_mem_string (value : List Cell) : terminator ∉ string terminator value := by
  intro member
  simpa using List.mem_takeWhile_imp member

theorem string_replicate_append (count : Nat) (rest : List Cell) :
    string terminator (List.replicate (count + 1) terminator ++ rest) = [] := by
  simp [string, List.replicate_succ]

/-- A string is read back if it holds no terminator, up to the next terminator
behind it. -/
theorem string_stringCells_append (value rest : List Cell) :
    string terminator (stringCells terminator value ++ rest) =
      if terminator ∈ value then string terminator value else value ++ string terminator rest := by
  have clean : terminator ∉ string terminator value := not_mem_string value
  split
  · rename_i member
    have shorter : (string terminator value).length < value.length := by
      refine Nat.lt_of_le_of_ne (length_string_le value) fun same => ?_
      have whole : string terminator value = value := (List.takeWhile_prefix _).eq_of_length same
      exact clean (whole.symm ▸ member)
    obtain ⟨count, missing⟩ : ∃ count,
        value.length - (string terminator value).length = count + 1 :=
      ⟨value.length - (string terminator value).length - 1, by omega⟩
    rw [stringCells, missing, List.append_assoc, string_append_of_not_mem clean,
      string_replicate_append, List.append_nil]
  · rename_i absent
    rw [stringCells, string_of_not_mem absent, Nat.sub_self, List.replicate_zero,
      List.append_nil, string_append_of_not_mem absent]

theorem string_eq_self_iff {value : List Cell} :
    string terminator value = value ↔ terminator ∉ value :=
  ⟨fun same member => not_mem_string value (same.symm ▸ member), string_of_not_mem⟩

/-- A string that leaves room for a terminator is read back from its field; of another the
field holds as much as it can, and the reader goes on behind it. -/
theorem string_strncpy_append (count : Nat) (value rest : List Cell) :
    string terminator (strncpy terminator count value ++ rest) =
      if (string terminator value).length < count then string terminator value
      else (string terminator value).take count ++ string terminator rest := by
  have clean : terminator ∉ string terminator value := not_mem_string value
  rw [strncpy]
  generalize string terminator value = text at clean
  by_cases room : text.length < count
  · obtain ⟨more, enough⟩ : ∃ more, count - text.length = more + 1 :=
      ⟨count - text.length - 1, by omega⟩
    have left : min (more + 1) count = more + 1 := by omega
    rw [if_pos room, List.take_append, List.take_of_length_le (Nat.le_of_lt room), enough,
      List.take_replicate, left, List.append_assoc, string_append_of_not_mem clean,
      string_replicate_append, List.append_nil]
  · rw [if_neg room, List.take_append_of_le_length (Nat.not_lt.mp room),
      string_append_of_not_mem fun member => clean (List.mem_of_mem_take member)]

end Library.Memory
