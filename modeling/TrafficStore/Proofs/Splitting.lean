import TrafficStore.Proofs.Lines

namespace TrafficStore.Text

def Ended (bs : Bytes) : Prop := bs = [] ∨ bs.getLast? = some lineFeed

instance (bs : Bytes) : Decidable (Ended bs) := inferInstanceAs (Decidable (_ ∨ _))

def crlf (bs : Bytes) : Bytes :=
  bs.flatMap (fun b => if b = lineFeed then [carriageReturn, lineFeed] else [b])

variable {a bs line : Bytes}

theorem chomp_of_carriageReturn_not_mem (h : carriageReturn ∉ line) : chomp line = line := by
  cases line with
  | nil => rfl
  | cons b line =>
      rw [chomp, if_neg]
      rintro rfl
      exact h List.mem_cons_self

theorem linesFrom_append_of_getLast? (h : a.getLast? = some lineFeed) (line b : Bytes) :
    linesFrom line (a ++ b) = linesFrom line a ++ lines b := by
  induction a generalizing line with
  | nil => cases h
  | cons x a ih =>
      cases a with
      | nil =>
          obtain rfl : x = lineFeed := Option.some.inj h
          rfl
      | cons y a =>
          rw [List.getLast?_cons_cons] at h
          rw [List.cons_append, linesFrom, linesFrom]
          by_cases hx : x = lineFeed
          · rw [if_pos hx, if_pos hx, ih h, List.cons_append]
          · rw [if_neg hx, if_neg hx, ih h]

theorem lines_append (h : Ended a) (b : Bytes) : lines (a ++ b) = lines a ++ lines b := by
  rcases h with rfl | h
  · rfl
  · exact linesFrom_append_of_getLast? h [] b

example : ¬ Ended [97, 13] ∧ lines ([97, 13] ++ [10]) ≠ lines [97, 13] ++ lines [10] := by decide

theorem lines_of_not_mem (h : lineFeed ∉ bs) : lines bs = if bs = [] then [] else [bs] := by
  have hlines := linesFrom_append h [] []
  rw [List.append_nil, List.append_nil] at hlines
  rw [lines, hlines, linesFrom, List.reverse_reverse]
  simp only [List.reverse_eq_nil_iff]

theorem lines_feed (h : lineFeed ∉ bs) (rest : Bytes) :
    lines (bs ++ lineFeed :: rest) = (chomp bs.reverse).reverse :: lines rest := by
  rw [lines, linesFrom_append h, List.append_nil, linesFrom, if_pos rfl, lines]

theorem Ended.feed (h : Ended a) (bs : Bytes) : Ended (bs ++ lineFeed :: a) := by
  refine .inr ?_
  rw [List.getLast?_append]
  rcases h with rfl | h
  · rfl
  · cases a with
    | nil => cases h
    | cons x a =>
        rw [List.getLast?_cons_cons, h]
        rfl

theorem lines_eq_append {pre post : List Bytes} {l : Bytes} (h : lines bs = pre ++ l :: post) :
    ∃ a b, bs = a ++ b ∧ Ended a ∧ lines a = pre ∧ lines b = l :: post := by
  induction pre generalizing bs with
  | nil => exact ⟨[], bs, rfl, .inl rfl, rfl, h⟩
  | cons p pre ih =>
      by_cases hfeed : lineFeed ∈ bs
      · obtain ⟨first, rest, rfl, hfirst⟩ := List.eq_append_cons_of_mem hfeed
        rw [lines_feed hfirst, List.cons_append] at h
        obtain ⟨rfl, hrest⟩ := List.cons.inj h
        obtain ⟨a, b, rfl, ha, rfl, hb⟩ := ih hrest
        refine ⟨first ++ lineFeed :: a, b, ?_, ha.feed first, lines_feed hfirst a, hb⟩
        rw [List.append_assoc, List.cons_append]
      · rw [lines_of_not_mem hfeed] at h
        split at h <;> simp at h

theorem linesFrom_crlf (hline : carriageReturn ∉ line) (h : carriageReturn ∉ bs) :
    linesFrom line (crlf bs) = linesFrom line bs := by
  induction bs generalizing line with
  | nil => rfl
  | cons b bs ih =>
      obtain ⟨hb, hbs⟩ := not_or.1 (mt List.mem_cons.2 h)
      rw [crlf, List.flatMap_cons, linesFrom]
      by_cases hfeed : b = lineFeed
      · rw [if_pos hfeed, if_pos hfeed, chomp_of_carriageReturn_not_mem hline]
        exact congrArg (List.cons line.reverse) (ih List.not_mem_nil hbs)
      · rw [if_neg hfeed, if_neg hfeed, List.singleton_append, linesFrom, if_neg hfeed]
        exact ih (fun hmem => (List.mem_cons.1 hmem).elim hb hline) hbs

theorem lines_crlf (h : carriageReturn ∉ bs) : lines (crlf bs) = lines bs :=
  linesFrom_crlf List.not_mem_nil h

end TrafficStore.Text
