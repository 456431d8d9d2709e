import TrafficStore.Text.Utf8

namespace TrafficStore.Text

def lineFeed : UInt8 := 10

def carriageReturn : UInt8 := 13

def chomp : Bytes → Bytes
  | [] => []
  | b :: bs => if b = carriageReturn then bs else b :: bs

/-- The lines of `bs` after the bytes `line`, given backwards. -/
def linesFrom (line : Bytes) : Bytes → List Bytes
  | [] => if line = [] then [] else [line.reverse]
  | b :: bs =>
      if b = lineFeed then (chomp line).reverse :: linesFrom [] bs
      else linesFrom (b :: line) bs

def lines (bs : Bytes) : List Bytes := linesFrom [] bs

def fields (sep : Char) : List Char → List (List Char)
  | [] => [[]]
  | c :: cs =>
      if c = sep then [] :: fields sep cs
      else
        match fields sep cs with
        | [] => [[c]]
        | f :: fs => (c :: f) :: fs

theorem fields_ne_nil (sep : Char) (cs : List Char) : fields sep cs ≠ [] := by
  cases cs with
  | nil => simp [fields]
  | cons c cs =>
      simp only [fields]
      split
      · simp
      · split <;> simp

theorem intercalate_fields (sep : Char) (cs : List Char) :
    [sep].intercalate (fields sep cs) = cs := by
  induction cs with
  | nil => simp [fields]
  | cons c cs ih =>
      simp only [fields]
      split
      · next h =>
          cases hf : fields sep cs with
          | nil => exact absurd hf (fields_ne_nil sep cs)
          | cons f fs => rw [hf] at ih; rw [List.intercalate_cons_cons, ih, h]; rfl
      · split
        · next hf => exact absurd hf (fields_ne_nil sep cs)
        · next f fs hf =>
            rw [hf] at ih
            cases fs with
            | nil => simp at ih ⊢; exact ih
            | cons g gs => rw [List.intercalate_cons_cons] at ih ⊢; simp [← ih]

def isBlank (c : Char) : Bool :=
  let n := c.toNat
  (9 ≤ n && n ≤ 13) || n == 0x20 || n == 0x85 || n == 0xA0 || n == 0x1680 ||
    (0x2000 ≤ n && n ≤ 0x200A) || n == 0x2028 || n == 0x2029 || n == 0x202F || n == 0x205F ||
    n == 0x3000

def dropBlanks (cs : List Char) : List Char := cs.dropWhile isBlank

def trim (cs : List Char) : List Char := (dropBlanks (dropBlanks cs).reverse).reverse

def fold (cs : List Char) : List Char := cs.map Char.toLower

end TrafficStore.Text
