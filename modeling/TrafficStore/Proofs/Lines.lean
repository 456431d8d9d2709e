import TrafficStore.Proofs.Format
import TrafficStore.Text.Lines

namespace TrafficStore.Text

def dropReturn (l : List Char) : List Char :=
  if l.getLast? = some '\r' then l.dropLast else l

def endLines : List (List Char) → List (List Char)
  | [] => []
  | [l] => if l = [] then [] else [l]
  | l :: l' :: ls => dropReturn l :: endLines (l' :: ls)

def textLines (cs : List Char) : List (List Char) := endLines (fields '\n' cs)

example : textLines "a\r\n\n\rb\r\r\nc\r".toList =
    ["a".toList, [], "\rb\r".toList, "c\r".toList] := by decide

namespace Utf8

def encodeChars (cs : List Char) : Bytes := cs.flatMap String.utf8EncodeChar

theorem encode_ofList (cs : List Char) : encode (.ofList cs) = encodeChars cs := by
  rw [encode, String.toList_ofList, encodeChars]

theorem encodeChars_append (cs ds : List Char) :
    encodeChars (cs ++ ds) = encodeChars cs ++ encodeChars ds :=
  List.flatMap_append

theorem encodeChars_singleton (c : Char) : encodeChars [c] = String.utf8EncodeChar c :=
  List.flatMap_singleton String.utf8EncodeChar c

theorem utf8EncodeChar_ne_nil (c : Char) : String.utf8EncodeChar c ≠ [] := by
  intro h
  have hlength := congrArg List.length h
  rw [String.length_utf8EncodeChar] at hlength
  exact absurd hlength (Nat.ne_of_gt c.utf8Size_pos)

theorem encodeChars_eq_nil {cs : List Char} : encodeChars cs = [] ↔ cs = [] := by
  rw [encodeChars, List.flatMap_eq_nil_iff]
  constructor
  · intro h
    cases cs with
    | nil => rfl
    | cons c cs => exact absurd (h c List.mem_cons_self) (utf8EncodeChar_ne_nil c)
  · rintro rfl c hc
    cases hc

end Utf8

open Utf8

theorem chomp_of_not_mem {bs rest : Bytes} (hne : bs ≠ []) (h : carriageReturn ∉ bs) :
    chomp (bs ++ rest) = bs ++ rest := by
  cases bs with
  | nil => exact absurd rfl hne
  | cons b bs =>
      rw [List.cons_append, chomp, if_neg]
      rintro rfl
      exact h List.mem_cons_self

theorem chomp_encodeChars (l : List Char) :
    (chomp (encodeChars l).reverse).reverse = encodeChars (dropReturn l) := by
  rcases List.eq_nil_or_concat l with rfl | ⟨l, c, rfl⟩
  · rfl
  · rw [dropReturn, List.concat_eq_append, encodeChars_append, List.reverse_append,
      List.getLast?_concat, List.dropLast_concat]
    by_cases hc : c = '\r'
    · subst hc
      rw [if_pos rfl]
      exact List.reverse_reverse _
    · rw [if_neg (fun h => hc (Option.some.inj h)), chomp_of_not_mem, ← List.reverse_append,
        List.reverse_reverse, encodeChars_append]
      · exact mt List.reverse_eq_nil_iff.1 (mt encodeChars_eq_nil.1 (List.cons_ne_nil c []))
      · rw [List.mem_reverse, encodeChars_singleton]
        exact not_mem_utf8EncodeChar (by decide) hc

theorem linesFrom_append {bs : Bytes} (h : lineFeed ∉ bs) (line rest : Bytes) :
    linesFrom line (bs ++ rest) = linesFrom (bs.reverse ++ line) rest := by
  induction bs generalizing line with
  | nil => rfl
  | cons b bs ih =>
      obtain ⟨hb, hbs⟩ := not_or.1 (mt List.mem_cons.2 h)
      rw [List.cons_append, linesFrom, if_neg (Ne.symm hb), ih hbs, List.reverse_cons,
        List.append_assoc]
      rfl

theorem linesFrom_encodeChars (line cs l : List Char) (ls : List (List Char))
    (h : fields '\n' cs = l :: ls) :
    linesFrom (encodeChars line).reverse (encodeChars cs) =
      (endLines ((line ++ l) :: ls)).map encodeChars := by
  -- `line` is what has been read of a line that no line feed has ended so far
  induction cs generalizing line l ls with
  | nil =>
      obtain ⟨rfl, rfl⟩ := List.cons.inj h
      rw [List.append_nil, endLines]
      change (if (encodeChars line).reverse = [] then [] else _) = _
      by_cases hline : line = []
      · subst hline
        rfl
      · rw [if_neg hline, if_neg (mt List.reverse_eq_nil_iff.1 (mt encodeChars_eq_nil.1 hline)),
          List.reverse_reverse]
        rfl
  | cons c cs ih =>
      obtain ⟨f, fs, hf⟩ := List.exists_cons_of_ne_nil (fields_ne_nil '\n' cs)
      rw [fields, hf] at h
      by_cases hc : c = '\n'
      · subst hc
        rw [if_pos rfl] at h
        obtain ⟨rfl, rfl⟩ := List.cons.inj h
        have hrest := ih [] f fs hf
        rw [List.append_nil, endLines, List.map_cons, ← chomp_encodeChars, ← List.nil_append f,
          ← hrest]
        rfl
      · rw [if_neg hc] at h
        obtain ⟨rfl, rfl⟩ := List.cons.inj h
        have hmem : lineFeed ∉ encodeChars [c] := by
          rw [encodeChars_singleton]
          exact not_mem_utf8EncodeChar (by decide) hc
        have hrest := ih (line ++ [c]) f fs hf
        rw [encodeChars_append, List.reverse_append, List.append_assoc] at hrest
        rw [← List.singleton_append, encodeChars_append, linesFrom_append hmem]
        exact hrest

theorem lines_encode (s : String) :
    lines (encode s) = (textLines s.toList).map (fun l => encode (.ofList l)) := by
  obtain ⟨l, ls, hl⟩ := List.exists_cons_of_ne_nil (fields_ne_nil '\n' s.toList)
  have h := linesFrom_encodeChars [] s.toList l ls hl
  rw [List.nil_append, ← hl] at h
  rw [funext encode_ofList]
  exact h

def terminated (ls : List (List Char)) : List Char := ls.flatMap (fun l => l ++ ['\n'])

theorem fields_append_cons {sep : Char} {l : List Char} (h : sep ∉ l) (cs : List Char) :
    fields sep (l ++ sep :: cs) = l :: fields sep cs := by
  induction l with
  | nil => rw [List.nil_append, fields, if_pos rfl]
  | cons c l ih =>
      obtain ⟨hc, hl⟩ := not_or.1 (mt List.mem_cons.2 h)
      rw [List.cons_append, fields, if_neg (Ne.symm hc), ih hl]

theorem fields_terminated {ls : List (List Char)} (h : ∀ l ∈ ls, '\n' ∉ l) :
    fields '\n' (terminated ls) = ls ++ [[]] := by
  induction ls with
  | nil => rfl
  | cons l ls ih =>
      rw [terminated, List.flatMap_cons, List.append_assoc, List.singleton_append,
        fields_append_cons (h l List.mem_cons_self), List.cons_append]
      exact congrArg (List.cons l) (ih (fun l hl => h l (List.mem_cons_of_mem _ hl)))

theorem endLines_append_nil (ls : List (List Char)) :
    endLines (ls ++ [[]]) = ls.map dropReturn := by
  induction ls with
  | nil => rfl
  | cons l ls ih =>
      rw [List.map_cons, ← ih]
      cases ls <;> rfl

theorem textLines_terminated {ls : List (List Char)} (h : ∀ l ∈ ls, '\n' ∉ l) :
    textLines (terminated ls) = ls.map dropReturn := by
  rw [textLines, fields_terminated h, endLines_append_nil]

end TrafficStore.Text
