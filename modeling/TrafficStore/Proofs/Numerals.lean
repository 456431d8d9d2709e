import Mathlib.Data.List.Induction
import TrafficStore.Text.Numeral

namespace TrafficStore.Text

inductive Digits : List Char → Nat → Prop
  | nil : Digits [] 0
  | snoc {ds : List Char} {n : Nat} {c : Char} : Digits ds n → c.isDigit = true →
      Digits (ds ++ [c]) (n * 10 + (c.toNat - 48))

inductive Numeral : List Char → Nat → Prop
  | plain {ds : List Char} {n : Nat} : ds ≠ [] → Digits ds n → Numeral ds n
  | signed {ds : List Char} {n : Nat} : ds ≠ [] → Digits ds n → Numeral ('+' :: ds) n

/-- No digits of a number below the bound: what comes first is to blame, a character that is no
digit or digits that already denote too much. -/
inductive Misread (bound : Nat) : List Char → NumeralFault → Prop
  | invalidDigit {ds : List Char} {n : Nat} {c : Char} (cs : List Char) : Digits ds n → n < bound →
      c.isDigit = false → Misread bound (ds ++ c :: cs) .invalidDigit
  | tooLarge {ds : List Char} {n : Nat} (cs : List Char) : Digits ds n → bound ≤ n →
      Misread bound (ds ++ cs) .tooLarge

inductive NoNumeral (bound : Nat) : List Char → NumeralFault → Prop
  | empty : NoNumeral bound [] .empty
  | sign : NoNumeral bound ['+'] .invalidDigit
  | plain {cs : List Char} {f : NumeralFault} : cs.head? ≠ some '+' → Misread bound cs f →
      NoNumeral bound cs f
  | signed {cs : List Char} {f : NumeralFault} : cs ≠ [] → Misread bound cs f →
      NoNumeral bound ('+' :: cs) f

section Digits

variable {bound n : Nat} {cs ds : List Char} {f : NumeralFault}

theorem Digits.isDigit (h : Digits ds n) : ∀ c ∈ ds, c.isDigit = true := by
  induction h with
  | nil => exact fun c hc => nomatch hc
  | snoc _ hc ih =>
      intro d hd
      rcases List.mem_append.1 hd with hd | hd
      · exact ih d hd
      · rw [List.mem_singleton.1 hd]
        exact hc

theorem exists_digits (h : ∀ c ∈ ds, c.isDigit = true) : ∃ n, Digits ds n := by
  induction ds using List.reverseRecOn with
  | nil => exact ⟨0, .nil⟩
  | append_singleton ds c ih =>
      obtain ⟨n, hn⟩ := ih (fun d hd => h d (List.mem_append_left _ hd))
      exact ⟨_, hn.snoc (h c (List.mem_append_right _ List.mem_cons_self))⟩

theorem digitsFrom_append (h : Digits ds n) : ∀ cs, 0 < bound → digitsFrom bound 0 (ds ++ cs) =
    if n < bound then digitsFrom bound n cs else .error .tooLarge := by
  induction h with
  | nil => exact fun cs hb => (if_pos hb).symm
  | @snoc ds n c _ hc ih =>
      intro cs hb
      rw [List.append_assoc, List.singleton_append, ih (c :: cs) hb]
      by_cases hn : n < bound
      · rw [if_pos hn, digitsFrom, if_pos hc]
      · have hmore : ¬ n * 10 + (c.toNat - 48) < bound := by omega
        rw [if_neg hn, if_neg hmore]

theorem Digits.digitsFrom_eq (h : Digits ds n) (hn : n < bound) :
    digitsFrom bound 0 ds = .ok n := by
  have happend := digitsFrom_append h [] (Nat.zero_lt_of_lt hn)
  rwa [List.append_nil, if_pos hn, digitsFrom] at happend

theorem Misread.digitsFrom_eq (h : Misread bound cs f) (hb : 0 < bound) :
    digitsFrom bound 0 cs = .error f := by
  cases h with
  | invalidDigit cs hds hn hc =>
      rw [digitsFrom_append hds _ hb, if_pos hn, digitsFrom, if_neg (by simp [hc])]
  | tooLarge cs hds hn => rw [digitsFrom_append hds _ hb, if_neg (Nat.not_lt.2 hn)]

theorem digits_or_misread (bound : Nat) (cs : List Char) :
    (∃ n, n < bound ∧ Digits cs n) ∨ ∃ f, Misread bound cs f := by
  obtain ⟨n, hn⟩ : ∃ n, Digits (cs.takeWhile Char.isDigit) n :=
    exists_digits (List.all_eq_true.1 List.all_takeWhile)
  have hcs : cs.takeWhile Char.isDigit ++ cs.dropWhile Char.isDigit = cs :=
    List.takeWhile_append_dropWhile
  by_cases hlt : n < bound
  · cases hrest : cs.dropWhile Char.isDigit with
    | nil =>
        rw [hrest, List.append_nil] at hcs
        rw [hcs] at hn
        exact .inl ⟨n, hlt, hn⟩
    | cons c rest =>
        have hc := List.head?_dropWhile_not Char.isDigit cs
        rw [hrest] at hcs hc
        rw [← hcs]
        exact .inr ⟨_, .invalidDigit rest hn hlt hc⟩
  · rw [← hcs]
    exact .inr ⟨_, .tooLarge _ hn (Nat.not_lt.1 hlt)⟩

theorem numeral_plain (hne : cs ≠ []) (h : cs.head? ≠ some '+') :
    numeral bound cs = digitsFrom bound 0 cs := by
  obtain ⟨c, cs, rfl⟩ := List.exists_cons_of_ne_nil hne
  have hc : c ≠ '+' := fun he => h (congrArg some he)
  simp only [numeral, hc, imp_self, implies_true, List.cons.injEq, false_and]

theorem numeral_signed (hne : cs ≠ []) : numeral bound ('+' :: cs) = digitsFrom bound 0 cs := by
  obtain ⟨c, cs, rfl⟩ := List.exists_cons_of_ne_nil hne
  rfl

theorem Misread.ne_nil (h : Misread bound cs f) (hb : 0 < bound) : cs ≠ [] := by
  rintro rfl
  have he := h.digitsFrom_eq hb
  rw [digitsFrom] at he
  cases he

theorem Digits.head?_ne_plus (h : Digits ds n) : ds.head? ≠ some '+' := by
  intro hplus
  have hdigit := h.isDigit '+' (List.mem_of_mem_head? hplus)
  revert hdigit
  decide

theorem Numeral.numeral_eq (h : Numeral cs n) (hn : n < bound) : numeral bound cs = .ok n := by
  cases h with
  | plain hne hds => rw [numeral_plain hne hds.head?_ne_plus, hds.digitsFrom_eq hn]
  | signed hne hds => rw [numeral_signed hne, hds.digitsFrom_eq hn]

theorem NoNumeral.numeral_eq (h : NoNumeral bound cs f) (hb : 0 < bound) :
    numeral bound cs = .error f := by
  cases h with
  | empty | sign => rfl
  | plain hhead hcs => rw [numeral_plain (hcs.ne_nil hb) hhead, hcs.digitsFrom_eq hb]
  | signed hne hcs => rw [numeral_signed hne, hcs.digitsFrom_eq hb]

theorem numeral_or_noNumeral (bound : Nat) (cs : List Char) :
    (∃ n, n < bound ∧ Numeral cs n) ∨ ∃ f, NoNumeral bound cs f := by
  by_cases hnil : cs = []
  · subst hnil
    exact .inr ⟨_, .empty⟩
  · by_cases hplus : cs.head? = some '+'
    · obtain ⟨cs, rfl⟩ := List.head?_eq_some_iff.1 hplus
      by_cases hrest : cs = []
      · subst hrest
        exact .inr ⟨_, .sign⟩
      · rcases digits_or_misread bound cs with ⟨n, hn, hds⟩ | ⟨f, hf⟩
        · exact .inl ⟨n, hn, .signed hrest hds⟩
        · exact .inr ⟨f, .signed hrest hf⟩
    · rcases digits_or_misread bound cs with ⟨n, hn, hds⟩ | ⟨f, hf⟩
      · exact .inl ⟨n, hn, .plain hnil hds⟩
      · exact .inr ⟨f, .plain hplus hf⟩

theorem numeral_eq_ok_iff (hb : 0 < bound) :
    numeral bound cs = .ok n ↔ n < bound ∧ Numeral cs n := by
  constructor
  · intro h
    rcases numeral_or_noNumeral bound cs with ⟨m, hm, hcs⟩ | ⟨f, hf⟩
    · rw [hcs.numeral_eq hm] at h
      cases h
      exact ⟨hm, hcs⟩
    · rw [hf.numeral_eq hb] at h
      cases h
  · exact fun h => h.2.numeral_eq h.1

theorem numeral_eq_error_iff (hb : 0 < bound) :
    numeral bound cs = .error f ↔ NoNumeral bound cs f := by
  constructor
  · intro h
    rcases numeral_or_noNumeral bound cs with ⟨m, hm, hcs⟩ | ⟨g, hg⟩
    · rw [hcs.numeral_eq hm] at h
      cases h
    · rw [hg.numeral_eq hb] at h
      cases h
      exact hg
  · exact fun h => h.numeral_eq hb

end Digits

theorem digits_singleton {d : Nat} (h : d < 10) : Digits [d.digitChar] d := by
  have hdigit : d.digitChar.isDigit = true := by rw [Nat.isDigit_digitChar, decide_eq_true h]
  have hsnoc := Digits.nil.snoc hdigit
  rw [Nat.toNat_digitChar_of_lt_ten h, Nat.zero_mul, Nat.zero_add, Nat.add_sub_cancel_left] at hsnoc
  exact hsnoc

theorem digits_toDigits (n : Nat) : Digits (Nat.toDigits 10 n) n := by
  induction n using Nat.strongRecOn with
  | _ n ih =>
      rw [Nat.toDigits_eq_if (by decide)]
      split
      · next h => exact digits_singleton h
      · have hmod : n % 10 < 10 := Nat.mod_lt n (by decide)
        have hdigit : (n % 10).digitChar.isDigit = true := by
          rw [Nat.isDigit_digitChar, decide_eq_true hmod]
        have hsnoc := (ih (n / 10) (by omega)).snoc hdigit
        rw [Nat.toNat_digitChar_of_lt_ten hmod] at hsnoc
        have hn : n / 10 * 10 + (48 + n % 10 - 48) = n := by omega
        rwa [hn] at hsnoc

theorem toList_toString (n : Nat) : (toString n).toList = Nat.toDigits 10 n :=
  String.toList_ofList

theorem numeral_toString (n : Nat) : Numeral (toString n).toList n := by
  rw [toList_toString]
  exact .plain Nat.toDigits_ne_nil (digits_toDigits n)

theorem isDigit_of_mem_toString {n : Nat} {c : Char} (h : c ∈ (toString n).toList) :
    c.isDigit = true := by
  rw [toList_toString] at h
  exact (digits_toDigits n).isDigit c h

end TrafficStore.Text
