/-!
# Blank characters

White space as text layout knows it: the ASCII controls from tab to carriage return, the space,
next line, no-break space, the widths of space and the line and paragraph separators. The space
that a data format allows between its tokens is a smaller set of its own.

## Main definitions

* `isBlank`: membership in the class.
* `trim`: a text without the blanks at its two ends.
-/
namespace CodeAtlas.Text

/-- A white space character. -/
def isBlank (c : Char) : Bool :=
  let n := c.toNat
  (0x9 ≤ n && n ≤ 0xD) || n == 0x20 || n == 0x85 || n == 0xA0 || n == 0x1680 ||
    (0x2000 ≤ n && n ≤ 0x200A) || n == 0x2028 || n == 0x2029 || n == 0x202F || n == 0x205F ||
    n == 0x3000

/-- The characters without the blanks at the end. -/
def trimEnd : List Char → List Char
  | [] => []
  | c :: rest =>
    match trimEnd rest with
    | [] => if isBlank c then [] else [c]
    | kept => c :: kept

/-- The characters without the blanks at both ends. -/
def trim (s : List Char) : List Char := trimEnd (s.dropWhile isBlank)

@[simp] theorem trimEnd_nil : trimEnd [] = [] := rfl
@[simp] theorem trim_nil : trim [] = [] := rfl

theorem trimEnd_sublist (s : List Char) : (trimEnd s).Sublist s := by
  induction s with
  | nil => exact .slnil
  | cons c rest ih =>
    rw [trimEnd]
    split
    · split
      · exact List.nil_sublist _
      · exact List.Sublist.cons_cons c (List.nil_sublist rest)
    · exact ih.cons_cons c

/-- Trimming only drops characters. -/
theorem mem_of_mem_trim {s : List Char} {c : Char} (h : c ∈ trim s) : c ∈ s :=
  (List.dropWhile_sublist _).subset ((trimEnd_sublist _).subset h)

end CodeAtlas.Text
