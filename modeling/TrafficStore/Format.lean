import TrafficStore.Text.Utf8

namespace TrafficStore

def littleEndian : Nat → Nat → Bytes
  | 0, _ => []
  | w + 1, n => UInt8.ofNat (n % 256) :: littleEndian w (n / 256)

def ofLittleEndian : Bytes → Nat
  | [] => 0
  | b :: bs => b.toNat + 256 * ofLittleEndian bs

theorem length_littleEndian (w n : Nat) : (littleEndian w n).length = w := by
  induction w generalizing n with
  | zero => rfl
  | succ w ih => simp [littleEndian, ih]

theorem ofLittleEndian_littleEndian (w n : Nat) :
    ofLittleEndian (littleEndian w n) = n % Nat.pow 256 w := by
  induction w generalizing n with
  | zero => simp [littleEndian, ofLittleEndian, Nat.mod_one]
  | succ w ih =>
      have hb : (UInt8.ofNat (n % 256)).toNat = n % 256 := by
        simp [UInt8.toNat_ofNat']
      have hp : Nat.pow 256 (w + 1) = 256 * Nat.pow 256 w := Nat.mul_comm _ _
      rw [littleEndian, ofLittleEndian, ih, hb, hp, Nat.mod_mul]

theorem littleEndian_ofLittleEndian (bs : Bytes) :
    littleEndian bs.length (ofLittleEndian bs) = bs := by
  induction bs with
  | nil => rfl
  | cons b bs ih =>
      have hb := b.toNat_lt
      have hm : (b.toNat + 256 * ofLittleEndian bs) % 256 = b.toNat := by omega
      have hd : (b.toNat + 256 * ofLittleEndian bs) / 256 = ofLittleEndian bs := by omega
      simp [littleEndian, ofLittleEndian, hm, hd, ih]

inductive FormatFault where
  | width (expected actual : Nat)
  | missingTerminator
  | utf8 (fault : Text.Utf8.Fault)
  deriving DecidableEq, Repr

namespace FormatFault

def message : FormatFault → String
  | width e a => s!"expected {e} bytes, found {a}"
  | missingTerminator => "string value is not NUL-terminated"
  | utf8 f => s!"string is not valid UTF-8: {f.message}"

end FormatFault

structure Format (α : Type) where
  encode : α → Bytes
  decode : Bytes → Except FormatFault α

namespace Format

def fixed {α : Type} (width : Nat) (toNat : α → Nat) (ofNat : Nat → α) : Format α where
  encode a := littleEndian width (toNat a)
  decode bs :=
    if bs.length = width then .ok (ofNat (ofLittleEndian bs)) else .error (.width width bs.length)

def int : Format Int32 := fixed 4 (fun n => n.toUInt32.toNat) (fun n => (UInt32.ofNat n).toInt32)

def word : Format UInt64 := fixed 8 UInt64.toNat UInt64.ofNat

def name : Format String where
  encode s := Text.Utf8.encode s
  decode bs := (Text.Utf8.decode bs).mapError .utf8

/-- A string that is a value: its bytes and a NUL. Reading stops at the first NUL. -/
def text : Format String where
  encode s := Text.Utf8.encode s ++ [0]
  decode bs :=
    if 0 ∈ bs then (Text.Utf8.decode (bs.takeWhile (· != 0))).mapError .utf8
    else .error .missingTerminator

end Format

end TrafficStore
