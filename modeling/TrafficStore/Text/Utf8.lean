namespace TrafficStore

abbrev Bytes := List UInt8

namespace Text.Utf8

structure Fault where
  start : Nat
  width : Option Nat
  deriving DecidableEq, Repr

namespace Fault

def message (f : Fault) : String :=
  match f.width with
  | some k => s!"invalid utf-8 sequence of {k} bytes from index {f.start}"
  | none => s!"incomplete utf-8 byte sequence from index {f.start}"

end Fault

def encode (s : String) : Bytes := s.toList.flatMap String.utf8EncodeChar

/-- Inside a sequence: the bytes seen and left, the range of the next byte, the bits so far. -/
inductive State where
  | start
  | inside (seen left low high bits : Nat)
  deriving DecidableEq, Repr

def State.ofLead (b : Nat) : Option State :=
  if b < 0xC2 then none
  else if b < 0xE0 then some (.inside 1 1 0x80 0xBF (b - 0xC0))
  else if b = 0xE0 then some (.inside 1 2 0xA0 0xBF 0)
  else if b = 0xED then some (.inside 1 2 0x80 0x9F 0xD)
  else if b < 0xF0 then some (.inside 1 2 0x80 0xBF (b - 0xE0))
  else if b = 0xF0 then some (.inside 1 3 0x90 0xBF 0)
  else if b < 0xF4 then some (.inside 1 3 0x80 0xBF (b - 0xF0))
  else if b = 0xF4 then some (.inside 1 3 0x80 0x8F 4)
  else none

def decodeFrom (index : Nat) : State → Bytes → Except Fault (List Char)
  | .start, [] => .ok []
  | .inside .., [] => .error ⟨index, none⟩
  | .start, b :: bs =>
      if b.toNat < 0x80 then
        (decodeFrom (index + 1) .start bs).map (Char.ofNat b.toNat :: ·)
      else
        match State.ofLead b.toNat with
        | none => .error ⟨index, some 1⟩
        | some st => decodeFrom index st bs
  | .inside seen left low high bits, b :: bs =>
      if low ≤ b.toNat ∧ b.toNat ≤ high then
        if left = 1 then
          (decodeFrom (index + seen + 1) .start bs).map
            (Char.ofNat (bits * 64 + (b.toNat - 0x80)) :: ·)
        else
          decodeFrom index (.inside (seen + 1) (left - 1) 0x80 0xBF (bits * 64 + (b.toNat - 0x80)))
            bs
      else .error ⟨index, some seen⟩

def decode (bs : Bytes) : Except Fault String :=
  (decodeFrom 0 .start bs).map String.ofList

theorem toNat_byte {n : Nat} (h : n < 256) : (UInt8.ofNat n).toNat = n := by
  rw [UInt8.toNat_ofNat', Nat.mod_eq_of_lt h]

theorem decodeFrom_ascii {i n : Nat} {bs : Bytes} (h : n < 0x80) :
    decodeFrom i .start (UInt8.ofNat n :: bs) =
      (decodeFrom (i + 1) .start bs).map (Char.ofNat n :: ·) := by
  rw [decodeFrom, toNat_byte (by omega), if_pos h]

theorem decodeFrom_lead {i n : Nat} {st : State} {bs : Bytes} (hn : n < 256) (h : 0x80 ≤ n)
    (hst : State.ofLead n = some st) :
    decodeFrom i .start (UInt8.ofNat n :: bs) = decodeFrom i st bs := by
  rw [decodeFrom, toNat_byte hn, if_neg (by omega), hst]

theorem decodeFrom_last {i seen low high bits n : Nat} {bs : Bytes} (hn : n < 256)
    (h : low ≤ n ∧ n ≤ high) :
    decodeFrom i (.inside seen 1 low high bits) (UInt8.ofNat n :: bs) =
      (decodeFrom (i + seen + 1) .start bs).map (Char.ofNat (bits * 64 + (n - 0x80)) :: ·) := by
  rw [decodeFrom, toNat_byte hn, if_pos h, if_pos rfl]

theorem decodeFrom_more {i seen left low high bits n : Nat} {bs : Bytes} (hn : n < 256)
    (h : low ≤ n ∧ n ≤ high) (hl : left ≠ 1) :
    decodeFrom i (.inside seen left low high bits) (UInt8.ofNat n :: bs) =
      decodeFrom i (.inside (seen + 1) (left - 1) 0x80 0xBF (bits * 64 + (n - 0x80))) bs := by
  rw [decodeFrom, toNat_byte hn, if_pos h, if_neg hl]

theorem ofLead_two {n : Nat} (h : 0xC2 ≤ n) (h' : n < 0xE0) :
    State.ofLead n = some (.inside 1 1 0x80 0xBF (n - 0xC0)) := by
  rw [State.ofLead, if_neg (by omega), if_pos h']

theorem ofLead_three {v : Nat} (h : 0x800 ≤ v) (h' : v < 0x10000) (hv : v.isValidChar) :
    ∃ low high, State.ofLead (v / 4096 + 0xE0) = some (.inside 1 2 low high (v / 4096)) ∧
      low ≤ v / 64 % 64 + 0x80 ∧ v / 64 % 64 + 0x80 ≤ high := by
  have hv : v < 0xD800 ∨ 0xDFFF < v ∧ v < 0x110000 := hv
  unfold State.ofLead
  rw [if_neg (by omega), if_neg (by omega)]
  by_cases h0 : v / 4096 = 0
  · rw [if_pos (by omega)]
    exact ⟨_, _, by rw [h0], by omega, by omega⟩
  · rw [if_neg (by omega)]
    by_cases hd : v / 4096 = 0xD
    · rw [if_pos (by omega)]
      exact ⟨_, _, by rw [hd], by omega, by omega⟩
    · rw [if_neg (by omega), if_pos (by omega), Nat.add_sub_cancel]
      exact ⟨_, _, rfl, by omega, by omega⟩

theorem ofLead_four {v : Nat} (h : 0x10000 ≤ v) (hv : v.isValidChar) :
    ∃ low high, State.ofLead (v / 262144 + 0xF0) = some (.inside 1 3 low high (v / 262144)) ∧
      low ≤ v / 4096 % 64 + 0x80 ∧ v / 4096 % 64 + 0x80 ≤ high := by
  have hv : v < 0xD800 ∨ 0xDFFF < v ∧ v < 0x110000 := hv
  unfold State.ofLead
  rw [if_neg (by omega), if_neg (by omega), if_neg (by omega), if_neg (by omega),
    if_neg (by omega)]
  by_cases h0 : v / 262144 = 0
  · rw [if_pos (by omega)]
    exact ⟨_, _, by rw [h0], by omega, by omega⟩
  · rw [if_neg (by omega)]
    by_cases h4 : v / 262144 = 4
    · rw [if_neg (by omega), if_pos (by omega)]
      exact ⟨_, _, by rw [h4], by omega, by omega⟩
    · rw [if_pos (by omega), Nat.add_sub_cancel]
      exact ⟨_, _, rfl, by omega, by omega⟩

theorem decodeFrom_utf8EncodeChar (i : Nat) (c : Char) (bs : Bytes) :
    decodeFrom i .start (String.utf8EncodeChar c ++ bs) =
      (decodeFrom (i + (String.utf8EncodeChar c).length) .start bs).map (c :: ·) := by
  have hv : c.toNat.isValidChar := c.valid
  have hc : Char.ofNat c.toNat = c := Char.ofNat_toNat c
  have hd : c.val.toNat = c.toNat := rfl
  simp only [String.utf8EncodeChar, hd]
  generalize c.toNat = v at hv hc
  have hlt : v < 0xD800 ∨ 0xDFFF < v ∧ v < 0x110000 := hv
  subst hc
  split
  · exact decodeFrom_ascii (by omega)
  · split
    · have h0 : v / 64 % 32 = v / 64 := by omega
      have hb : (v / 64 + 0xC0 - 0xC0) * 64 + (v % 64 + 0x80 - 0x80) = v := by omega
      rw [h0, List.cons_append, List.cons_append,
        decodeFrom_lead (by omega) (by omega) (ofLead_two (by omega) (by omega)),
        decodeFrom_last (by omega) (by omega), hb]
      rfl
    · split
      · have h0 : v / 4096 % 16 = v / 4096 := by omega
        have hb : (v / 4096 * 64 + (v / 64 % 64 + 0x80 - 0x80)) * 64 +
            (v % 64 + 0x80 - 0x80) = v := by omega
        obtain ⟨low, high, hst, hr⟩ := ofLead_three (by omega) (by omega) hv
        rw [h0, List.cons_append, List.cons_append, List.cons_append,
          decodeFrom_lead (by omega) (by omega) hst, decodeFrom_more (by omega) hr (by omega),
          decodeFrom_last (by omega) (by omega), hb]
        rfl
      · have h0 : v / 262144 % 8 = v / 262144 := by omega
        have hb : ((v / 262144 * 64 + (v / 4096 % 64 + 0x80 - 0x80)) * 64 +
            (v / 64 % 64 + 0x80 - 0x80)) * 64 + (v % 64 + 0x80 - 0x80) = v := by omega
        obtain ⟨low, high, hst, hr⟩ := ofLead_four (by omega) hv
        rw [h0, List.cons_append, List.cons_append, List.cons_append, List.cons_append,
          decodeFrom_lead (by omega) (by omega) hst, decodeFrom_more (by omega) hr (by omega),
          decodeFrom_more (by omega) (by omega) (by omega), decodeFrom_last (by omega) (by omega),
          hb]
        rfl

theorem decodeFrom_flatMap_utf8EncodeChar (cs : List Char) :
    ∀ i, decodeFrom i .start (cs.flatMap String.utf8EncodeChar) = .ok cs := by
  induction cs with
  | nil => intro i; rfl
  | cons c cs ih =>
      intro i
      rw [List.flatMap_cons, decodeFrom_utf8EncodeChar, ih]
      rfl

theorem decode_encode (s : String) : decode (encode s) = .ok s := by
  rw [decode, encode, decodeFrom_flatMap_utf8EncodeChar]
  exact congrArg Except.ok String.ofList_toList

end Text.Utf8

end TrafficStore
