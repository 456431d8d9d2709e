import TrafficStore.Proofs.Lines
import TrafficStore.Proofs.Numerals
import TrafficStore.Proofs.Words

namespace TrafficStore

namespace Text

structure Parts (sep : Char) (cs : List Char) (fs : List (List Char)) : Prop where
  ne_nil : fs ≠ []
  joined : [sep].intercalate fs = cs
  bare : ∀ f ∈ fs, sep ∉ f

variable {sep : Char} {cs : List Char} {fs : List (List Char)}

theorem fields_of_not_mem (h : sep ∉ cs) : fields sep cs = [cs] := by
  induction cs with
  | nil => rfl
  | cons c cs ih =>
      obtain ⟨hc, hcs⟩ := not_or.1 (mt List.mem_cons.2 h)
      rw [fields, if_neg (Ne.symm hc), ih hcs]

theorem not_mem_of_mem_fields (sep : Char) (cs : List Char) : ∀ f ∈ fields sep cs, sep ∉ f := by
  induction cs with
  | nil =>
      intro f hf
      rw [List.mem_singleton.1 hf]
      exact List.not_mem_nil
  | cons c cs ih =>
      intro f hf
      obtain ⟨g, gs, hg⟩ := List.exists_cons_of_ne_nil (fields_ne_nil sep cs)
      rw [fields, hg] at hf
      rw [hg] at ih
      split at hf
      · rcases List.mem_cons.1 hf with rfl | hf
        · exact List.not_mem_nil
        · exact ih f hf
      · next hc =>
          rcases List.mem_cons.1 hf with rfl | hf
          · intro hmem
            rcases List.mem_cons.1 hmem with he | hmem
            · exact hc he.symm
            · exact ih g List.mem_cons_self hmem
          · exact ih f (List.mem_cons_of_mem _ hf)

theorem Parts.fields_eq (h : Parts sep cs fs) : fields sep cs = fs := by
  obtain ⟨hne, rfl, hbare⟩ := h
  induction fs with
  | nil => exact absurd rfl hne
  | cons f fs ih =>
      have hf : sep ∉ f := hbare f List.mem_cons_self
      cases fs with
      | nil => rw [List.intercalate_singleton, fields_of_not_mem hf]
      | cons g gs =>
          rw [List.intercalate_cons_cons, List.append_assoc, List.singleton_append,
            fields_append_cons hf]
          congr 1
          exact ih (List.cons_ne_nil g gs) (fun x hx => hbare x (List.mem_cons_of_mem _ hx))

theorem parts_iff : Parts sep cs fs ↔ fields sep cs = fs := by
  constructor
  · exact Parts.fields_eq
  · rintro rfl
    exact ⟨fields_ne_nil sep cs, intercalate_fields sep cs, not_mem_of_mem_fields sep cs⟩

end Text

namespace LogRecord

open Text (Parts Trims Numeral NoNumeral)

inductive Reads : List (List Char) → Except RecordFault LogRecord → Prop where
  | noPanel {typed : List Char} {rest : List (List Char)} : (∀ p : Panel, ¬ p.Spelled typed) →
      Reads (typed :: rest) (.error (.unknownPanel (.ofList typed)))
  | noKey {p : Panel} {typed : List Char} : p.Spelled typed → Reads [typed] (.error .missingKey)
  | emptyKey {p : Panel} {typed : List Char} {rest : List (List Char)} : p.Spelled typed →
      Reads (typed :: [] :: rest) (.error .missingKey)
  | badCount {p : Panel} {typed key raw word : List Char} {rest : List (List Char)}
      {fault : Text.NumeralFault} : p.Spelled typed → key ≠ [] → Trims raw word →
      NoNumeral UInt64.size word fault →
      Reads (typed :: key :: raw :: rest) (.error (.badCount (.ofList raw) fault))
  | uncounted {p : Panel} {typed key : List Char} : p.Spelled typed → key ≠ [] →
      Reads [typed, key] (.ok ⟨p, .ofList key, 0⟩)
  | counted {p : Panel} {typed key raw word : List Char} {n : UInt64}
      {rest : List (List Char)} : p.Spelled typed → key ≠ [] → Trims raw word →
      Numeral word n.toNat → Reads (typed :: key :: raw :: rest) (.ok ⟨p, .ofList key, n⟩)

section Reads

variable {fs rest : List (List Char)} {r : Except RecordFault LogRecord} {p : Panel}
  {typed key : List Char}

theorem Refused.reads {f : RecordFault} (h : Refused fs f) : Reads fs (.error f) := by
  cases h with
  | panel hnone => exact .noPanel (fun p hp => hnone p (Panel.named_iff_spelled.2 hp))
  | noKey hp => exact .noKey (Panel.named_iff_spelled.1 hp)
  | emptyKey hp => exact .emptyKey (Panel.named_iff_spelled.1 hp)
  | count hp hkey hraw =>
      exact .badCount (Panel.named_iff_spelled.1 hp) hkey (Text.trims_trim _)
        ((Text.numeral_eq_error_iff (by decide)).1 hraw)

theorem reads_error_iff {f : RecordFault} : Reads fs (.error f) ↔ Refused fs f := by
  constructor
  · intro h
    cases h with
    | noPanel hnone => exact .panel (fun p hp => hnone p (Panel.named_iff_spelled.1 hp))
    | noKey hp => exact .noKey (Panel.named_iff_spelled.2 hp)
    | emptyKey hp => exact .emptyKey (Panel.named_iff_spelled.2 hp)
    | badCount hp hkey hword hfault =>
        refine .count (Panel.named_iff_spelled.2 hp) hkey ?_
        rw [hword.trim_eq]
        exact (Text.numeral_eq_error_iff (by decide)).2 hfault
  · exact Refused.reads

theorem parseFields_spelled (hp : p.Spelled typed) (hkey : key ≠ []) :
    parseFields (typed :: key :: rest) =
      (parseCount rest).map (fun n => ⟨p, .ofList key, n⟩) := by
  obtain ⟨c, cs, rfl⟩ := List.exists_cons_of_ne_nil hkey
  simp only [parseFields, Panel.ofText?_eq_some_iff.2 hp]

theorem parseCount_eq_ok_iff {raw : List Char} {n : UInt64} :
    parseCount (raw :: rest) = .ok n ↔ ∃ word, Trims raw word ∧ Numeral word n.toNat := by
  have hread : Numeral (Text.trim raw) n.toNat ↔
      Text.numeral UInt64.size (Text.trim raw) = .ok n.toNat := by
    rw [Text.numeral_eq_ok_iff (by decide), and_iff_right n.toNat_lt]
  simp only [Text.trims_iff, exists_eq_left', hread, parseCount]
  cases hword : Text.numeral UInt64.size (Text.trim raw) with
  | error f => constructor <;> intro h <;> cases h
  | ok m =>
      have hm : m < UInt64.size := ((Text.numeral_eq_ok_iff (by decide)).1 hword).1
      simp only [Except.ok.injEq]
      constructor
      · rintro rfl
        exact (UInt64.toNat_ofNat_of_lt hm).symm
      · intro he
        rw [he, UInt64.ofNat_toNat]

theorem Reads.parseFields_eq (h : Reads fs r) : parseFields fs = r := by
  cases h with
  | noPanel hnone => exact (reads_error_iff.1 (.noPanel hnone)).parseFields
  | noKey hp => exact (reads_error_iff.1 (.noKey hp)).parseFields
  | emptyKey hp => exact (reads_error_iff.1 (.emptyKey hp)).parseFields
  | badCount hp hkey hword hfault =>
      exact (reads_error_iff.1 (.badCount hp hkey hword hfault)).parseFields
  | uncounted hp hkey => rw [parseFields_spelled hp hkey]; rfl
  | counted hp hkey hword hn =>
      rw [parseFields_spelled hp hkey, parseCount_eq_ok_iff.2 ⟨_, hword, hn⟩]
      rfl

theorem reads_of_parseFields_ok (hfs : fs ≠ []) {a : LogRecord} (h : parseFields fs = .ok a) :
    Reads fs (.ok a) := by
  obtain ⟨typed, rest, rfl⟩ := List.exists_cons_of_ne_nil hfs
  cases hp : Panel.ofText? (.ofList typed) with
  | none => simp only [parseFields, hp] at h; cases h
  | some p =>
      have hspelled := Panel.ofText?_eq_some_iff.1 hp
      rcases rest with _ | ⟨_ | ⟨c, cs⟩, rest⟩
      · simp only [parseFields, hp] at h
        cases h
      · simp only [parseFields, hp] at h
        cases h
      · have hkey : c :: cs ≠ [] := List.cons_ne_nil c cs
        rw [parseFields_spelled hspelled hkey] at h
        obtain ⟨n, hn, rfl⟩ := map_eq_ok h
        rcases rest with _ | ⟨raw, rest⟩
        · cases hn
          exact .uncounted hspelled hkey
        · obtain ⟨word, hword, hnumeral⟩ := parseCount_eq_ok_iff.1 hn
          exact .counted hspelled hkey hword hnumeral

theorem reads_iff (hfs : fs ≠ []) : Reads fs r ↔ parseFields fs = r := by
  refine ⟨Reads.parseFields_eq, fun h => ?_⟩
  cases r with
  | ok a => exact reads_of_parseFields_ok hfs h
  | error f => exact (refused_of_parseFields hfs h).reads

end Reads

theorem reads_written (p : Panel) {key : String} (hkey : key ≠ "") (n : UInt64) :
    Reads [p.name.toList, key.toList, (toString n.toNat).toList] (.ok ⟨p, key, n⟩) := by
  have hne : key.toList ≠ [] := fun he => hkey (String.toList_eq_nil_iff.1 he)
  have hword : Trims (toString n.toNat).toList (toString n.toNat).toList :=
    .self (fun c hc => Text.isBlank_of_isDigit (Text.isDigit_of_mem_toString hc))
  have h : Reads [p.name.toList, key.toList, (toString n.toNat).toList]
      (.ok ⟨p, .ofList key.toList, n⟩) :=
    .counted p.spelled_name hne hword (Text.numeral_toString n.toNat)
  rwa [String.ofList_toList] at h

theorem parts_written (p : Panel) {key : String} (hkey : '\t' ∉ key.toList) (n : UInt64) :
    Parts '\t' s!"{p.name}\t{key}\t{n.toNat}".toList
      [p.name.toList, key.toList, (toString n.toNat).toList] where
  ne_nil := List.cons_ne_nil _ _
  joined := by
    have htext : s!"{p.name}\t{key}\t{n.toNat}" =
        p.name ++ "\t" ++ key ++ "\t" ++ toString n.toNat := rfl
    rw [htext]
    simp only [String.toList_append, List.intercalate_cons_cons, List.intercalate_singleton,
      List.append_assoc]
    rfl
  bare f hf := by
    have hname : '\t' ∉ p.name.toList := by cases p <;> decide
    have hcount : '\t' ∉ (toString n.toNat).toList := by
      intro htab
      have hdigit := Text.isDigit_of_mem_toString htab
      revert hdigit
      decide
    simp only [List.mem_cons, List.not_mem_nil, or_false] at hf
    rcases hf with rfl | rfl | rfl
    · exact hname
    · exact hkey
    · exact hcount

theorem parse_reads :
    (∀ line r, parse line = r ↔ ∃ fs, Parts '\t' line.toList fs ∧ Reads fs r) ∧
    (∀ (p : Panel) (key : String) (n : UInt64), key ≠ "" → '\t' ∉ key.toList →
      parse s!"{p.name}\t{key}\t{n.toNat}" = .ok ⟨p, key, n⟩) ∧
    ∀ (p q : Panel) (typed : List Char), p.Spelled typed → q.Spelled typed → p = q := by
  have hparse : ∀ line r, parse line = r ↔ ∃ fs, Parts '\t' line.toList fs ∧ Reads fs r := by
    intro line r
    simp only [Text.parts_iff, exists_eq_left', reads_iff (Text.fields_ne_nil _ _)]
    rfl
  refine ⟨hparse, fun p key n hkey htab => ?_, fun p q typed => Panel.spelled_unique⟩
  exact (hparse _ _).2 ⟨_, parts_written p htab n, reads_written p hkey n⟩

example : parse "\u3000Hosts \t k \t +007\tmore" = .ok ⟨.hosts, " k ", 7⟩ ∧
    parse "hosts\tk\t18446744073709551616" =
      .error (.badCount "18446744073709551616" .tooLarge) := by decide

end LogRecord

end TrafficStore
