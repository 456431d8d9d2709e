import Mathlib.Data.List.Forall2
import TrafficStore.Proofs.BadLines

namespace TrafficStore

namespace Text

structure Trims (cs word : List Char) : Prop where
  blanks : ∃ pre post, cs = pre ++ (word ++ post) ∧ (∀ c ∈ pre, isBlank c = true) ∧
    ∀ c ∈ post, isBlank c = true
  first : ∀ c, word.head? = some c → isBlank c = false
  last : ∀ c, word.getLast? = some c → isBlank c = false

section Trims

variable {cs pre word : List Char}

theorem dropBlanks_append (hpre : ∀ c ∈ pre, isBlank c = true)
    (hfirst : ∀ c, word.head? = some c → isBlank c = false) : dropBlanks (pre ++ word) = word := by
  rw [dropBlanks, List.dropWhile_append_of_pos hpre]
  cases word with
  | nil => rfl
  | cons c word => rw [List.dropWhile_cons_of_neg (by simp [hfirst c rfl])]

theorem exists_dropBlanks (cs : List Char) :
    ∃ pre, cs = pre ++ dropBlanks cs ∧ ∀ c ∈ pre, isBlank c = true :=
  ⟨cs.takeWhile isBlank, List.takeWhile_append_dropWhile.symm,
    fun _ hc => (List.all_eq_true.1 List.all_takeWhile) _ hc⟩

theorem head?_dropBlanks {c : Char} (h : (dropBlanks cs).head? = some c) : isBlank c = false := by
  have hhead := List.head?_dropWhile_not isBlank cs
  rw [show (List.dropWhile isBlank cs).head? = some c from h] at hhead
  exact hhead

theorem Trims.trim_eq (h : Trims cs word) : trim cs = word := by
  obtain ⟨pre, post, rfl, hpre, hpost⟩ := h.blanks
  have hpost' : ∀ c ∈ post.reverse, isBlank c = true := fun c hc => hpost c (List.mem_reverse.1 hc)
  have hlast : ∀ c, word.reverse.head? = some c → isBlank c = false := by
    intro c hc
    rw [List.head?_reverse] at hc
    exact h.last c hc
  have hback : dropBlanks (word ++ post).reverse = word.reverse := by
    rw [List.reverse_append]
    exact dropBlanks_append hpost' hlast
  cases word with
  | nil =>
      have hnone : dropBlanks (pre ++ ([] ++ post)) = [] := by
        have hall : ∀ c ∈ pre ++ ([] ++ post), isBlank c = true := by
          intro c hc
          exact (List.mem_append.1 hc).elim (hpre c) (hpost c)
        have hdrop : dropBlanks (pre ++ ([] ++ post) ++ []) = [] :=
          dropBlanks_append hall (fun c hc => nomatch hc)
        rwa [List.append_nil] at hdrop
      rw [trim, hnone]
      rfl
  | cons c word =>
      have hfront : dropBlanks (pre ++ (c :: word ++ post)) = c :: word ++ post :=
        dropBlanks_append hpre h.first
      rw [trim, hfront, hback, List.reverse_reverse]

theorem trims_trim (cs : List Char) : Trims cs (trim cs) := by
  obtain ⟨pre, hcs, hpre⟩ := exists_dropBlanks cs
  obtain ⟨post, hrest, hpost⟩ := exists_dropBlanks (dropBlanks cs).reverse
  have hword : dropBlanks cs = trim cs ++ post.reverse := by
    rw [trim, ← List.reverse_append, ← hrest, List.reverse_reverse]
  refine ⟨⟨pre, post.reverse, hword ▸ hcs, hpre, fun c hc => hpost c (List.mem_reverse.1 hc)⟩,
    fun c hc => ?_, fun c hc => ?_⟩
  · have hhead : (dropBlanks cs).head? = some c := by
      rw [hword, List.head?_append, hc]
      rfl
    exact head?_dropBlanks hhead
  · rw [trim, List.getLast?_reverse] at hc
    exact head?_dropBlanks hc

theorem Trims.self (h : ∀ c ∈ word, isBlank c = false) : Trims word word where
  blanks := ⟨[], [], (List.append_nil word).symm, by simp, by simp⟩
  first c hc := h c (List.mem_of_mem_head? hc)
  last c hc := h c (List.mem_of_getLast? hc)

theorem trims_iff : Trims cs word ↔ trim cs = word :=
  ⟨Trims.trim_eq, fun h => h ▸ trims_trim cs⟩

theorem isBlank_of_isDigit {c : Char} (h : c.isDigit = true) : isBlank c = false := by
  have hrange : 48 ≤ c.toNat ∧ c.toNat ≤ 57 := by
    rw [Char.isDigit, Bool.and_eq_true, decide_eq_true_eq, decide_eq_true_eq] at h
    exact h
  simp only [isBlank, Bool.or_eq_false_iff, Bool.and_eq_false_iff, decide_eq_false_iff_not,
    beq_eq_false_iff_ne]
  omega

end Trims

def CapitalOf (c d : Char) : Prop := 'A' ≤ c ∧ c ≤ 'Z' ∧ d.toNat = c.toNat + 32

def SameLetter (c d : Char) : Prop := c = d ∨ CapitalOf c d ∨ CapitalOf d c

theorem toNat_toLower (c : Char) :
    c.toLower.toNat = if 65 ≤ c.toNat ∧ c.toNat ≤ 90 then c.toNat + 32 else c.toNat := by
  have hcond : (c.val ≥ 'A'.val ∧ c.val ≤ 'Z'.val) ↔ (65 ≤ c.toNat ∧ c.toNat ≤ 90) := Iff.rfl
  delta Char.toLower
  by_cases h : 65 ≤ c.toNat ∧ c.toNat ≤ 90
  · rw [dif_pos (hcond.2 h), if_pos h]
    have h32 : ('a'.val - 'A'.val).toNat = 32 := rfl
    have hsum : (c.val + ('a'.val - 'A'.val)).toNat = c.val.toNat + 32 := by
      rw [UInt32.toNat_add, h32, Nat.mod_eq_of_lt]
      have hle : c.val.toNat ≤ 90 := h.2
      omega
    exact hsum
  · rw [dif_neg (fun hc => h (hcond.1 hc)), if_neg h]

theorem capitalOf_iff {c d : Char} :
    CapitalOf c d ↔ 65 ≤ c.toNat ∧ c.toNat ≤ 90 ∧ d.toNat = c.toNat + 32 := Iff.rfl

theorem toLower_eq_iff {c d : Char} : c.toLower = d.toLower ↔ SameLetter c d := by
  rw [SameLetter, capitalOf_iff, capitalOf_iff, ← Char.toNat_inj, ← Char.toNat_inj, toNat_toLower,
    toNat_toLower]
  split <;> split <;> omega

theorem fold_eq_iff {cs ds : List Char} : fold cs = fold ds ↔ List.Forall₂ SameLetter cs ds := by
  rw [fold, fold, ← List.forall₂_eq_eq_eq, List.forall₂_map_left_iff, List.forall₂_map_right_iff]
  simp only [toLower_eq_iff]

end Text

namespace Panel

def Spelled (p : Panel) (typed : List Char) : Prop :=
  ∃ word, Text.Trims typed word ∧ List.Forall₂ Text.SameLetter p.name.toList word

variable {p q : Panel} {typed : List Char}

theorem named_iff_spelled : p.Named typed ↔ p.Spelled typed := by
  simp only [Named, Spelled, Text.fold_eq_iff, Text.trims_iff, exists_eq_left']

theorem fold_name_injective (h : Text.fold p.name.toList = Text.fold q.name.toList) : p = q := by
  have hall : ∀ p ∈ all, ∀ q ∈ all,
      Text.fold p.name.toList = Text.fold q.name.toList → p = q := by decide
  exact hall p p.mem_all q q.mem_all h

theorem spelled_unique (hp : p.Spelled typed) (hq : q.Spelled typed) : p = q :=
  fold_name_injective ((named_iff_spelled.2 hp).trans (named_iff_spelled.2 hq).symm)

theorem ofText?_eq_some_iff : ofText? (.ofList typed) = some p ↔ p.Spelled typed := by
  constructor
  · exact fun h => named_iff_spelled.1 (named_of_ofText? h)
  · intro h
    cases hq : ofText? (.ofList typed) with
    | none => exact absurd (named_iff_spelled.2 h) (ofText?_eq_none_iff.1 hq p)
    | some q => rw [spelled_unique (named_iff_spelled.1 (named_of_ofText? hq)) h]

theorem spelled_name (p : Panel) : p.Spelled p.name.toList :=
  ofText?_eq_some_iff.1 (by cases p <;> decide)

end Panel

end TrafficStore
