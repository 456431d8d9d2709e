import TrafficStore.Proofs.Outcomes
import TrafficStore.Text.Utf8

namespace TrafficStore

namespace Text.Utf8

def Completes (seen : Bytes) (low high bits : Nat) : Nat → Prop
  | 0 => False
  | 1 => ∀ b : UInt8, low ≤ b.toNat → b.toNat ≤ high →
      String.utf8EncodeChar (Char.ofNat (bits * 64 + (b.toNat - 0x80))) = seen ++ [b]
  | left + 2 => ∀ b : UInt8, low ≤ b.toNat → b.toNat ≤ high →
      Completes (seen ++ [b]) 0x80 0xBF (bits * 64 + (b.toNat - 0x80)) (left + 1)

theorem completes_next {seen : Bytes} {low high bits left : Nat} {b : UInt8}
    (h : Completes seen low high bits left) (hleft : left ≠ 1) (hlow : low ≤ b.toNat)
    (hhigh : b.toNat ≤ high) :
    Completes (seen ++ [b]) 0x80 0xBF (bits * 64 + (b.toNat - 0x80)) (left - 1) := by
  cases left with
  | zero => exact h.elim
  | succ left =>
      cases left with
      | zero => exact absurd rfl hleft
      | succ left => exact h b hlow hhigh

def State.After : State → Bytes → Prop
  | start, seen => seen = []
  | inside _ left low high bits, seen => Completes seen low high bits left

theorem val_ofNat {v : Nat} (h : v.isValidChar) : (Char.ofNat v).val.toNat = v := by
  rw [Char.ofNat, dif_pos h]
  exact UInt32.toNat_ofNatLT

theorem ofNat_eq {n : Nat} {b : UInt8} (h : n = b.toNat) : UInt8.ofNat n = b := by
  rw [h, UInt8.ofNat_toNat]

theorem utf8EncodeChar_ascii {b : UInt8} (h : b.toNat < 0x80) :
    String.utf8EncodeChar (Char.ofNat b.toNat) = [b] := by
  simp only [String.utf8EncodeChar, val_ofNat (.inl (by omega) : b.toNat.isValidChar)]
  rw [if_pos (by omega), ofNat_eq rfl]

section Lead

variable {a : UInt8} {lead low high : Nat}

theorem completes_two (ha : a.toNat = lead + 0xC0) (h : 2 ≤ lead) (h' : lead < 0x20) :
    Completes [a] 0x80 0xBF lead 1 := by
  intro b hb hb'
  have hv : (lead * 64 + (b.toNat - 0x80)).isValidChar := .inl (by omega)
  simp only [String.utf8EncodeChar, val_ofNat hv]
  rw [if_neg (by omega), if_pos (by omega), ofNat_eq (b := a) (by omega),
    ofNat_eq (b := b) (by omega)]
  rfl

theorem completes_three (ha : a.toNat = lead + 0xE0) (h : lead < 0x10) (hlow : 0x80 ≤ low)
    (hhigh : high ≤ 0xBF) (hrange : ∀ n, low ≤ n → n ≤ high → 0x20 ≤ lead * 64 + (n - 0x80) ∧
      (lead * 64 + (n - 0x80) < 0x360 ∨ 0x380 ≤ lead * 64 + (n - 0x80))) :
    Completes [a] low high lead 2 := by
  intro b hb hb' c hc hc'
  obtain ⟨hshort, hsurrogate⟩ := hrange b.toNat hb hb'
  have hv : ((lead * 64 + (b.toNat - 0x80)) * 64 + (c.toNat - 0x80)).isValidChar := by
    rcases hsurrogate with hs | hs
    · exact .inl (by omega)
    · exact .inr ⟨by omega, by omega⟩
  simp only [String.utf8EncodeChar, val_ofNat hv]
  rw [if_neg (by omega), if_neg (by omega), if_pos (by omega), ofNat_eq (b := a) (by omega),
    ofNat_eq (b := b) (by omega), ofNat_eq (b := c) (by omega)]
  rfl

theorem completes_four (ha : a.toNat = lead + 0xF0) (h : lead < 5) (hlow : 0x80 ≤ low)
    (hhigh : high ≤ 0xBF) (hrange : ∀ n, low ≤ n → n ≤ high →
      0x10 ≤ lead * 64 + (n - 0x80) ∧ lead * 64 + (n - 0x80) < 0x110) :
    Completes [a] low high lead 3 := by
  intro b hb hb' c hc hc' d hd hd'
  obtain ⟨hshort, hlast⟩ := hrange b.toNat hb hb'
  have hv : (((lead * 64 + (b.toNat - 0x80)) * 64 + (c.toNat - 0x80)) * 64 +
      (d.toNat - 0x80)).isValidChar := .inr ⟨by omega, by omega⟩
  simp only [String.utf8EncodeChar, val_ofNat hv]
  rw [if_neg (by omega), if_neg (by omega), if_neg (by omega), ofNat_eq (b := a) (by omega),
    ofNat_eq (b := b) (by omega), ofNat_eq (b := c) (by omega), ofNat_eq (b := d) (by omega)]
  rfl

theorem after_ofLead {st : State} (h : State.ofLead a.toNat = some st) : st.After [a] := by
  rw [State.ofLead] at h
  split at h
  · cases h
  split at h
  · cases h
    exact completes_two (by omega) (by omega) (by omega)
  split at h
  · cases h
    exact completes_three (by omega) (by omega) (by omega) (by omega) (fun n _ _ => by omega)
  split at h
  · cases h
    exact completes_three (by omega) (by omega) (by omega) (by omega) (fun n _ _ => by omega)
  split at h
  · cases h
    exact completes_three (by omega) (by omega) (by omega) (by omega) (fun n _ _ => by omega)
  split at h
  · cases h
    exact completes_four (by omega) (by omega) (by omega) (by omega) (fun n _ _ => by omega)
  split at h
  · cases h
    exact completes_four (by omega) (by omega) (by omega) (by omega) (fun n _ _ => by omega)
  split at h
  · cases h
    exact completes_four (by omega) (by omega) (by omega) (by omega) (fun n _ _ => by omega)
  · cases h

end Lead

theorem encode_of_decodeFrom (bs : Bytes) : ∀ {i : Nat} (st : State) {seen : Bytes}
    {cs : List Char}, st.After seen → decodeFrom i st bs = .ok cs →
    cs.flatMap String.utf8EncodeChar = seen ++ bs := by
  induction bs with
  | nil =>
      intro i st seen cs hst h
      cases st with
      | start =>
          cases h
          rw [State.After] at hst
          rw [hst]
          rfl
      | inside => cases h
  | cons b bs ih =>
      intro i st seen cs hst h
      cases st with
      | start =>
          rw [State.After] at hst
          subst hst
          rw [decodeFrom] at h
          split at h
          · next hb =>
              obtain ⟨cs, hcs, rfl⟩ := map_eq_ok h
              rw [List.flatMap_cons, utf8EncodeChar_ascii hb, ih .start rfl hcs]
              rfl
          · cases hlead : State.ofLead b.toNat with
            | none => rw [hlead] at h; cases h
            | some st =>
                rw [hlead] at h
                exact ih st (after_ofLead hlead) h
      | inside n left low high bits =>
          rw [decodeFrom] at h
          split at h
          · next hb =>
              split at h
              · next hleft =>
                  subst hleft
                  obtain ⟨cs, hcs, rfl⟩ := map_eq_ok h
                  rw [List.flatMap_cons, hst b hb.1 hb.2, ih .start rfl hcs,
                    List.append_assoc]
                  rfl
              · next hleft =>
                  rw [List.append_cons]
                  exact ih (.inside ..) (completes_next hst hleft hb.1 hb.2) h
          · cases h

theorem encode_of_decode {bs : Bytes} {s : String} (h : decode bs = .ok s) : encode s = bs := by
  obtain ⟨cs, hcs, rfl⟩ := map_eq_ok h
  rw [encode, String.toList_ofList]
  exact encode_of_decodeFrom bs .start rfl hcs

theorem decode_eq_ok_iff {bs : Bytes} {s : String} : decode bs = .ok s ↔ encode s = bs :=
  ⟨encode_of_decode, fun h => h ▸ decode_encode s⟩

end Text.Utf8

end TrafficStore
