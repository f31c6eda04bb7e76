/-
# PassiveBitcoin.Go.Binary — fixed-width integers as bytes

Two byte formats of the program write integers of a fixed width: the address record,
through `binary.Write(buf, binary.LittleEndian, v)`, least significant byte first, and
`time.Time.MarshalBinary`, which `node.GobEncode` reaches through gob, most
significant byte first. Both are this module's two codecs on natural numbers:

* `leBytes w n` / `leNat` — the `w` bytes of `n`, least significant first, and back;
  `length_leBytes`, `leNat_leBytes` (as `n % 256 ^ w`, so exact below `256 ^ w`) and
  `leBytes_leNat`, by induction on the width or the list;
* `beBytes w n` / `beNat` — the same bytes in the other order;
* `Data.writeLE` — what `binary.Write` with `binary.LittleEndian` appends for each Go
  type the program hands it.

A Go integer of `n` bits is a `BitVec n`; its bytes are those of its `toNat`, which is
below `2 ^ n`, so both codecs give it back exactly from `w` bytes when `n ≤ 8 * w`
(`ofNat_leNat_leBytes`, `ofNat_beNat_beBytes`).
-/
import Mathlib.Data.BitVec

namespace PassiveBitcoin

set_option autoImplicit false

namespace Binary

/-- The `w` little-endian bytes of `n`; bits above `8 * w` are dropped. -/
def leBytes : Nat → Nat → List UInt8
  | 0, _ => []
  | w + 1, n => UInt8.ofNat (n % 256) :: leBytes w (n / 256)

/-- The natural number with the given little-endian bytes. -/
def leNat : List UInt8 → Nat
  | [] => 0
  | b :: bs => b.toNat + 256 * leNat bs

/-- The `w` big-endian bytes of `n`. -/
def beBytes (w n : Nat) : List UInt8 := (leBytes w n).reverse

/-- The natural number with the given big-endian bytes. -/
def beNat (l : List UInt8) : Nat := leNat l.reverse

@[simp] theorem length_leBytes (w n : Nat) : (leBytes w n).length = w := by
  induction w generalizing n with
  | zero => rfl
  | succ w ih => simp [leBytes, ih]

@[simp] theorem length_beBytes (w n : Nat) : (beBytes w n).length = w := by
  simp [beBytes]

theorem toNat_ofNat_mod (n : Nat) : (UInt8.ofNat (n % 256)).toNat = n % 256 :=
  UInt8.toNat_ofNat_of_lt (Nat.mod_lt _ (by decide))

theorem leNat_leBytes (w n : Nat) : leNat (leBytes w n) = n % 256 ^ w := by
  induction w generalizing n with
  | zero => simp [leBytes, leNat, Nat.mod_one]
  | succ w ih =>
      rw [leBytes, leNat, ih, toNat_ofNat_mod, Nat.pow_succ', Nat.mod_mul]

theorem leNat_lt (l : List UInt8) : leNat l < 256 ^ l.length := by
  induction l with
  | nil => simp [leNat]
  | cons b bs ih =>
      have hb : b.toNat < 256 := b.toNat_lt_size
      rw [leNat, List.length_cons, Nat.pow_succ']
      omega

theorem leBytes_leNat (l : List UInt8) : leBytes l.length (leNat l) = l := by
  induction l with
  | nil => rfl
  | cons b bs ih =>
      have hb : b.toNat < 256 := b.toNat_lt_size
      have hdiv : (b.toNat + 256 * leNat bs) / 256 = leNat bs := by omega
      have hmod : (b.toNat + 256 * leNat bs) % 256 = b.toNat := by omega
      rw [List.length_cons, leBytes, leNat, hdiv, hmod, ih]
      exact congrArg (· :: bs) (UInt8.toNat.inj (UInt8.toNat_ofNat_of_lt hb))

theorem leNat_append (l₁ l₂ : List UInt8) :
    leNat (l₁ ++ l₂) = leNat l₁ + 256 ^ l₁.length * leNat l₂ := by
  induction l₁ with
  | nil => simp [leNat]
  | cons b bs ih =>
      rw [List.cons_append, leNat, leNat, ih, List.length_cons, Nat.pow_succ', Nat.mul_add,
        Nat.mul_assoc, Nat.add_assoc]

theorem beNat_beBytes (w n : Nat) : beNat (beBytes w n) = n % 256 ^ w := by
  simp [beNat, beBytes, leNat_leBytes]

/-- The bytes of a Go integer of at most `8 * w` bits give it back. -/
theorem leNat_leBytes_toNat {n : Nat} (w : Nat) (x : BitVec n) (h : n ≤ 8 * w) : leNat (leBytes w x.toNat) = x.toNat := by
  rw [leNat_leBytes, Nat.mod_eq_of_lt]
  calc x.toNat < 2 ^ n := x.isLt
    _ ≤ 2 ^ (8 * w) := Nat.pow_le_pow_right (by decide) h
    _ = 256 ^ w := by rw [Nat.pow_mul]

theorem ofNat_leNat_leBytes {n : Nat} (w : Nat) (x : BitVec n) (h : n ≤ 8 * w) :
    BitVec.ofNat n (leNat (leBytes w x.toNat)) = x := by
  rw [leNat_leBytes_toNat w x h, BitVec.ofNat_toNat, BitVec.setWidth_eq]

theorem ofNat_beNat_beBytes {n : Nat} (w : Nat) (x : BitVec n) (h : n ≤ 8 * w) :
    BitVec.ofNat n (beNat (beBytes w x.toNat)) = x := by
  simp only [beNat, beBytes, List.reverse_reverse, ofNat_leNat_leBytes w x h]

/-! ## `binary.Write` -/

/-- A value handed to `binary.Write`, by its Go type: the fixed-size integers the program
writes, and byte slices (`[]byte` and named byte slices such as `net.IP`, a nil one
included, which writes nothing). -/
inductive Data where
  | int64 (v : BitVec 64)
  | uint16 (v : BitVec 16)
  | uint8 (v : UInt8)
  | bytes (b : List UInt8)

/-- The bytes `binary.Write(buf, binary.LittleEndian, v)` appends to a buffer. -/
def Data.writeLE : Data → List UInt8
  | .int64 v => leBytes 8 v.toNat
  | .uint16 v => leBytes 2 v.toNat
  | .uint8 v => [v]
  | .bytes b => b

end Binary

end PassiveBitcoin
