import Mathlib.Data.List.TakeWhile
import TrafficStore.Proofs.Decoding

namespace TrafficStore

structure CutsAtNul (s t : String) : Prop where
  beginning : t.toList <+: s.toList
  free : '\x00' ∉ t.toList
  longest : ∀ u : String, u.toList <+: s.toList → '\x00' ∉ u.toList → u.toList <+: t.toList

theorem toList_beforeNul (s : String) : (beforeNul s).toList = s.toList.takeWhile (· ≠ '\x00') :=
  String.toList_ofList

theorem takeWhile_append_of_free (rest : List Char) {cs : List Char} (h : '\x00' ∉ cs) :
    (cs ++ rest).takeWhile (· ≠ '\x00') = cs ++ rest.takeWhile (· ≠ '\x00') := by
  refine List.takeWhile_append_of_pos (fun c hc => decide_eq_true ?_)
  rintro rfl
  exact h hc

theorem cutsAtNul_beforeNul (s : String) : CutsAtNul s (beforeNul s) where
  beginning := by
    rw [toList_beforeNul]
    exact List.takeWhile_prefix _
  free := by
    rw [toList_beforeNul]
    intro h
    have hne := List.mem_takeWhile_imp h
    simp at hne
  longest u hu hfree := by
    obtain ⟨rest, hrest⟩ := hu
    rw [toList_beforeNul, ← hrest, takeWhile_append_of_free rest hfree]
    exact List.prefix_append _ _

theorem beforeNul_eq_self_iff {s : String} : beforeNul s = s ↔ '\x00' ∉ s.toList := by
  constructor
  · intro h
    rw [← h]
    exact (cutsAtNul_beforeNul s).free
  · intro h
    have hwhole := takeWhile_append_of_free [] h
    rw [List.append_nil, List.takeWhile_nil, List.append_nil] at hwhole
    rw [← String.toList_inj, toList_beforeNul, hwhole]

namespace Text.Utf8

structure Fault.Breaks (f : Fault) (bs : Bytes) : Prop where
  readable : ∃ s, encode s = bs.take f.start
  furthest : ∀ s, encode s <+: bs → (encode s).length ≤ f.start

theorem le_start_of_decodeFrom (bs : Bytes) : ∀ {i : Nat} (st : State) {f : Fault},
    decodeFrom i st bs = .error f → i ≤ f.start := by
  induction bs with
  | nil =>
      intro i st f h
      cases st with
      | start => cases h
      | inside => cases h; exact Nat.le_refl i
  | cons b bs ih =>
      intro i st f h
      cases st with
      | start =>
          rw [decodeFrom] at h
          split at h
          · exact Nat.le_of_succ_le (ih .start (map_eq_error h))
          · cases hlead : State.ofLead b.toNat with
            | none => rw [hlead] at h; cases h; exact Nat.le_refl i
            | some st => rw [hlead] at h; exact ih st h
      | inside seen left low high bits =>
          rw [decodeFrom] at h
          split at h
          · split at h
            · have hle := ih .start (map_eq_error h)
              omega
            · exact ih _ h
          · cases h
            exact Nat.le_refl i

theorem decodeFrom_flatMap_append (cs : List Char) (bs : Bytes) : ∀ i,
    decodeFrom i .start (cs.flatMap String.utf8EncodeChar ++ bs) =
      (decodeFrom (i + (cs.flatMap String.utf8EncodeChar).length) .start bs).map (cs ++ ·) := by
  induction cs with
  | nil =>
      intro i
      change decodeFrom i .start bs = (decodeFrom i .start bs).map (fun ds => ds)
      cases decodeFrom i .start bs <;> rfl
  | cons c cs ih =>
      intro i
      rw [List.flatMap_cons, List.append_assoc, decodeFrom_utf8EncodeChar, ih, List.length_append,
        Nat.add_assoc]
      cases decodeFrom _ .start bs <;> rfl

def State.Counts : State → Bytes → Prop
  | start, seen => seen = []
  | inside n _ _ _ _, seen => seen.length = n

theorem counts_ofLead {a : UInt8} {st : State} (h : State.ofLead a.toNat = some st) :
    st.Counts [a] := by
  rw [State.ofLead] at h
  repeat' split at h
  all_goals cases h
  all_goals rfl

theorem splits_of_decodeFrom (bs : Bytes) : ∀ {i : Nat} (st : State) {seen : Bytes} {f : Fault},
    st.After seen → st.Counts seen → decodeFrom i st bs = .error f →
    ∃ (cs : List Char) (rest : Bytes), seen ++ bs = cs.flatMap String.utf8EncodeChar ++ rest ∧
      f.start = i + (cs.flatMap String.utf8EncodeChar).length := by
  -- the index stands where the current sequence began: it moves on by the bytes of a character
  induction bs with
  | nil =>
      intro i st seen f hst hseen h
      cases st with
      | start => cases h
      | inside => cases h; exact ⟨[], _, rfl, rfl⟩
  | cons b bs ih =>
      intro i st seen f hst hseen h
      cases st with
      | start =>
          rw [State.Counts] at hseen
          subst hseen
          rw [decodeFrom] at h
          split at h
          · next hb =>
              obtain ⟨cs, rest, hsplit, hstart⟩ := ih .start rfl rfl (map_eq_error h)
              refine ⟨Char.ofNat b.toNat :: cs, rest, ?_, ?_⟩
              · rw [List.flatMap_cons, utf8EncodeChar_ascii hb, List.append_assoc, ← hsplit]
                rfl
              · rw [List.flatMap_cons, utf8EncodeChar_ascii hb, List.length_append, hstart,
                  Nat.add_assoc]
                rfl
          · cases hlead : State.ofLead b.toNat with
            | none => rw [hlead] at h; cases h; exact ⟨[], _, rfl, rfl⟩
            | some st =>
                rw [hlead] at h
                exact ih st (after_ofLead hlead) (counts_ofLead hlead) h
      | inside n left low high bits =>
          rw [State.Counts] at hseen
          rw [decodeFrom] at h
          split at h
          · next hb =>
              split at h
              · next hleft =>
                  subst hleft
                  obtain ⟨cs, rest, hsplit, hstart⟩ := ih .start rfl rfl (map_eq_error h)
                  have hchar := hst b hb.1 hb.2
                  refine ⟨Char.ofNat (bits * 64 + (b.toNat - 0x80)) :: cs, rest, ?_, ?_⟩
                  · rw [List.flatMap_cons, hchar, List.append_assoc, List.append_assoc, ← hsplit]
                    rfl
                  · rw [List.flatMap_cons, hchar, List.length_append, List.length_append, hstart,
                      hseen, List.length_singleton, Nat.add_assoc, Nat.add_assoc, Nat.add_assoc]
              · next hleft =>
                  rw [List.append_cons]
                  refine ih (.inside ..) (completes_next hst hleft hb.1 hb.2) ?_ h
                  rw [State.Counts, List.length_append, hseen]
                  rfl
          · cases h
            exact ⟨[], _, rfl, rfl⟩

theorem breaks_of_decode {bs : Bytes} {f : Fault} (h : decode bs = .error f) : f.Breaks bs where
  readable := by
    obtain ⟨cs, rest, hsplit, hstart⟩ := splits_of_decodeFrom bs .start rfl rfl (map_eq_error h)
    rw [List.nil_append] at hsplit
    refine ⟨String.ofList cs, ?_⟩
    rw [encode, String.toList_ofList, hsplit, hstart, Nat.zero_add, List.take_left]
  furthest s hs := by
    obtain ⟨rest, rfl⟩ := hs
    have hrun := map_eq_error h
    rw [encode, decodeFrom_flatMap_append] at hrun
    have hle := le_start_of_decodeFrom rest .start (map_eq_error hrun)
    rwa [Nat.zero_add] at hle

end Text.Utf8

namespace Format

def beforeZero (bs : Bytes) : Bytes := bs.take (bs.idxOf 0)

theorem beforeZero_terminated {bs : Bytes} (rest : Bytes) (h : (0 : UInt8) ∉ bs) :
    beforeZero (bs ++ 0 :: rest) = bs := by
  rw [beforeZero, List.idxOf_append_of_notMem h, List.idxOf_cons_self, Nat.add_zero,
    List.take_left]

theorem decode_text_eq {bs : Bytes} (h : (0 : UInt8) ∈ bs) :
    text.decode bs = (Text.Utf8.decode (beforeZero bs)).mapError .utf8 := by
  obtain ⟨start, rest, rfl, hno⟩ := List.eq_append_cons_of_mem h
  rw [decode_text_terminated rest hno, beforeZero_terminated rest hno]

theorem decode_text_eq_missing_iff {bs : Bytes} :
    text.decode bs = .error .missingTerminator ↔ (0 : UInt8) ∉ bs := by
  constructor
  · intro h hmem
    rw [decode_text_eq hmem] at h
    cases hd : Text.Utf8.decode (beforeZero bs) with
    | ok t => rw [hd] at h; cases h
    | error f => rw [hd] at h; cases h
  · exact fun h => if_neg h

theorem decode_text_eq_ok_iff {bs : Bytes} (h : (0 : UInt8) ∈ bs) {t : String} :
    text.decode bs = .ok t ↔ Text.Utf8.encode t = beforeZero bs := by
  rw [decode_text_eq h, ← Text.Utf8.decode_eq_ok_iff]
  cases Text.Utf8.decode (beforeZero bs) with
  | error f => exact ⟨fun hd => (nomatch hd), fun hd => (nomatch hd)⟩
  | ok s => exact ⟨fun hd => congrArg Except.ok (Except.ok.inj hd),
      fun hd => congrArg Except.ok (Except.ok.inj hd)⟩

theorem encode_eq_iff {bs : Bytes} {t : String} (h : text.decode bs = .ok t) :
    text.encode t = bs ↔ bs.idxOf 0 + 1 = bs.length := by
  have hmem : (0 : UInt8) ∈ bs := by
    by_contra hno
    rw [show text.decode bs = _ from if_neg hno] at h
    cases h
  obtain ⟨start, rest, rfl, hno⟩ := List.eq_append_cons_of_mem hmem
  have ht : Text.Utf8.encode t = start := by
    rw [(decode_text_eq_ok_iff hmem).1 h, beforeZero_terminated rest hno]
  have hencode : text.encode t = start ++ [0] := congrArg (· ++ [0]) ht
  rw [hencode, List.idxOf_append_of_notMem hno, List.idxOf_cons_self, List.append_cancel_left_eq,
    List.length_append, List.length_cons]
  constructor
  · intro hrest
    rw [← (List.cons.inj hrest).2]
    rfl
  · intro hlength
    rw [List.eq_nil_of_length_eq_zero (by omega : rest.length = 0)]

end Format

theorem texts_terminated :
    (∀ s : String, ∃ t, Format.text.decode (Format.text.encode s) = .ok t ∧ CutsAtNul s t ∧
      (t = s ↔ '\x00' ∉ s.toList)) ∧
    (∀ bs : Bytes, Format.text.decode bs = .error .missingTerminator ↔ (0 : UInt8) ∉ bs) ∧
    (∀ {bs : Bytes}, (0 : UInt8) ∈ bs → ∀ t, Format.text.decode bs = .ok t ↔
      Text.Utf8.encode t = Format.beforeZero bs) ∧
    (∀ {bs : Bytes}, (0 : UInt8) ∈ bs → (∀ t, Text.Utf8.encode t ≠ Format.beforeZero bs) →
      ∃ f : Text.Utf8.Fault, Format.text.decode bs = .error (.utf8 f) ∧
        Text.Utf8.decode (Format.beforeZero bs) = .error f ∧ f.Breaks (Format.beforeZero bs)) ∧
    (∀ {start : Bytes}, (0 : UInt8) ∉ start → ∀ rest rest' : Bytes,
      Format.text.decode (start ++ 0 :: rest) = Format.text.decode (start ++ 0 :: rest')) ∧
    ∀ {bs : Bytes} {t : String}, Format.text.decode bs = .ok t →
      (Format.text.encode t = bs ↔ bs.idxOf 0 + 1 = bs.length) := by
  refine ⟨fun s => ?_, fun bs => ?_, Format.decode_text_eq_ok_iff, fun {bs} hmem hno => ?_,
    fun hno rest rest' => ?_, Format.encode_eq_iff⟩
  · exact ⟨_, Format.decode_text_encode s, cutsAtNul_beforeNul s, beforeNul_eq_self_iff⟩
  · exact Format.decode_text_eq_missing_iff
  · cases hd : Text.Utf8.decode (Format.beforeZero bs) with
    | ok t => exact absurd (Text.Utf8.encode_of_decode hd) (hno t)
    | error f =>
        refine ⟨f, ?_, rfl, Text.Utf8.breaks_of_decode hd⟩
        rw [Format.decode_text_eq hmem, hd]
        rfl
  · rw [Format.decode_text_terminated rest hno, Format.decode_text_terminated rest' hno]

end TrafficStore
