namespace TrafficStore

def wordMax : Nat := 0xFFFFFFFFFFFFFFFF

def clampWord (n : Nat) : UInt64 := UInt64.ofNat (min n wordMax)

theorem toNat_clampWord (n : Nat) : (clampWord n).toNat = min n wordMax := by
  have h : min n wordMax < UInt64.size := by
    have hs : UInt64.size = wordMax + 1 := rfl
    omega
  rw [clampWord, UInt64.toNat_ofNat', Nat.mod_eq_of_lt h]

def intMin : Int := -0x80000000

def intMax : Int := 0x7FFFFFFF

def clampInt (n : Int) : Int32 := Int32.ofInt (max intMin (min n intMax))

theorem toInt_clampInt (n : Int) : (clampInt n).toInt = max intMin (min n intMax) := by
  have hl : intMin = -0x80000000 := rfl
  have hh : intMax = 0x7FFFFFFF := rfl
  rw [clampInt, Int32.toInt_ofInt_of_le] <;> omega

def addWord (a b : UInt64) : UInt64 := clampWord (a.toNat + b.toNat)

def addInt (a b : Int32) : Int32 := clampInt (a.toInt + b.toInt)

theorem addInt_clampInt (n : Nat) : addInt (clampInt n) 1 = clampInt (n + 1) := by
  have hl : intMin = -0x80000000 := rfl
  have hh : intMax = 0x7FFFFFFF := rfl
  have h1 : (1 : Int32).toInt = 1 := rfl
  rw [← Int32.toInt_inj, addInt, toInt_clampInt, toInt_clampInt, toInt_clampInt, h1]
  omega

theorem addWord_clampWord (m : Nat) (n : UInt64) :
    addWord (clampWord m) n = clampWord (m + n.toNat) := by
  rw [← UInt64.toNat_inj, addWord, toNat_clampWord, toNat_clampWord, toNat_clampWord]
  omega

end TrafficStore
