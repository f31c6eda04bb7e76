/-
# PassiveBitcoin.Go.Time — `time.Time` and its binary form

A node records three instants (`lastAttempt`, `lastSuccess`, `lastConnect`) and an
address record one (`stamp`). This module models Go 1.5's `time.Time` as far as the
program reaches it:

* `Time` — `sec`, the seconds since January 1 of year 1, an `int64`; `nsec`, the
  nanoseconds within the second, an `int32`; and its `Location`;
* `Time.equal` — `t.Equal(u)`, the same instant whatever the locations;
* `Time.unixNano` — `t.UnixNano()`, computed in `int64` arithmetic, which wraps;
* `Time.marshalBinary` / `Time.unmarshalBinary` — `MarshalBinary` and
  `UnmarshalBinary`, which are what `GobEncode` and `GobDecode` of `time.Time` do: a
  version byte, `sec` and `nsec` big-endian, and the zone offset in minutes as an
  `int16`, with `-1` standing for UTC.

`MarshalBinary` refuses a zone whose offset is not a whole number of minutes, is one
minute west of UTC (the value `-1` is taken), or does not fit `int16` minutes
(`marshalBinary_ok_iff`). Every other time comes back exactly
(`unmarshalBinary_marshalBinary`).
-/
import PassiveBitcoin.Go.Binary

namespace PassiveBitcoin

set_option autoImplicit false

/-- A `*time.Location`, seen through what the program needs of it: `UTC`, or a zone
(`Local` or a fixed zone) with its offset east of UTC, in seconds, at the time's
instant. -/
inductive Location where
  | utc
  | zone (offset : Int)
  deriving DecidableEq, Repr

/-- A `time.Time` of Go 1.5. `nsec` lies in `[0, 10^9)` for every value the time
package makes. -/
structure Time where
  sec : BitVec 64
  nsec : BitVec 32
  loc : Location
  deriving DecidableEq, Repr

namespace Location

/-- The zone offset `MarshalBinary` writes, in minutes east of UTC, `-1` for UTC. -/
def offsetMin : Location → Except String (BitVec 16)
  | .utc => .ok (BitVec.ofInt 16 (-1))
  | .zone offset =>
      if offset % 60 ≠ 0 then .error "Time.MarshalBinary: zone offset has fractional minute"
      else if offset / 60 < -32768 ∨ offset / 60 = -1 ∨ offset / 60 > 32767 then
        .error "Time.MarshalBinary: unexpected zone offset"
      else .ok (BitVec.ofInt 16 (offset / 60))

/-- The location `UnmarshalBinary` gives a time whose offset it read as `offset`
seconds: `-60` stands for UTC. -/
def ofOffset (offset : Int) : Location := if offset = -1 * 60 then .utc else .zone offset

/-- The locations `MarshalBinary` accepts. -/
def Marshalable : Location → Prop
  | .utc => True
  | .zone offset => offset % 60 = 0 ∧ -32768 ≤ offset / 60 ∧ offset / 60 ≠ -1 ∧ offset / 60 ≤ 32767

instance : DecidablePred Marshalable := fun
  | .utc => isTrue trivial
  | .zone offset =>
      inferInstanceAs (Decidable (offset % 60 = 0 ∧ -32768 ≤ offset / 60 ∧ offset / 60 ≠ -1 ∧ offset / 60 ≤ 32767))

theorem offsetMin_ok_iff (l : Location) : (∃ m, l.offsetMin = .ok m) ↔ l.Marshalable := by
  cases l with
  | utc => exact ⟨fun _ => trivial, fun _ => ⟨_, rfl⟩⟩
  | zone offset =>
      simp only [offsetMin, Marshalable]
      split
      · next hfrac => exact ⟨fun ⟨_, h⟩ => (nomatch h), fun h => absurd h.1 hfrac⟩
      split
      · exact ⟨fun ⟨_, h⟩ => (nomatch h), fun _ => by omega⟩
      · exact ⟨fun _ => by omega, fun _ => ⟨_, rfl⟩⟩

/-- The offset written is read back as the location it came from. -/
theorem ofOffset_offsetMin {l : Location} {m : BitVec 16} (h : l.offsetMin = .ok m) :
    ofOffset (m.toInt * 60) = l := by
  cases l with
  | utc => cases h; rfl
  | zone offset =>
      simp only [offsetMin] at h
      split at h
      · cases h
      · split at h
        · cases h
        · cases h
          have hm : (BitVec.ofInt 16 (offset / 60)).toInt = offset / 60 := by
            rw [BitVec.toInt_ofInt, Int.bmod_def]
            split <;> omega
          rw [hm, ofOffset, if_neg (by omega), Int.ediv_mul_cancel (Int.dvd_of_emod_eq_zero (by omega))]

end Location

namespace Time

/-- The zero `time.Time`: year 1, in UTC. -/
def zero : Time := ⟨0, 0, .utc⟩

/-- `t.Equal(u)`. -/
def equal (t u : Time) : Bool := t.sec == u.sec && t.nsec == u.nsec

theorem equal_self (t : Time) : t.equal t := by simp [equal]

/-- `internalToUnix`: the seconds from January 1 of year 1 to January 1, 1970, negated. -/
def internalToUnix : BitVec 64 := BitVec.ofInt 64 (-62135596800)

/-- `t.UnixNano()`: `(t.sec + internalToUnix) * 1e9 + int64(t.nsec)`, in `int64`. -/
def unixNano (t : Time) : BitVec 64 := (t.sec + internalToUnix) * 1000000000 + t.nsec.signExtend 64

/-- `timeBinaryVersion`. -/
def timeBinaryVersion : UInt8 := 1

/-- `t.MarshalBinary()`. -/
def marshalBinary (t : Time) : Except String (List UInt8) :=
  t.loc.offsetMin.map fun offsetMin =>
    timeBinaryVersion :: (Binary.beBytes 8 t.sec.toNat ++ Binary.beBytes 4 t.nsec.toNat ++
      Binary.beBytes 2 offsetMin.toNat)

/-- `t.UnmarshalBinary(data)`, into any time: every field is overwritten. -/
def unmarshalBinary (data : List UInt8) : Except String Time :=
  match data with
  | [] => .error "Time.UnmarshalBinary: no data"
  | v :: buf =>
      if v ≠ timeBinaryVersion then .error "Time.UnmarshalBinary: unsupported version"
      else if data.length ≠ 1 + 8 + 4 + 2 then .error "Time.UnmarshalBinary: invalid length"
      else
        .ok ⟨BitVec.ofNat 64 (Binary.beNat (buf.take 8)), BitVec.ofNat 32 (Binary.beNat ((buf.drop 8).take 4)),
          Location.ofOffset ((BitVec.ofNat 16 (Binary.beNat (buf.drop 12))).toInt * 60)⟩

theorem marshalBinary_ok_iff (t : Time) : (∃ b, t.marshalBinary = .ok b) ↔ t.loc.Marshalable := by
  rw [← Location.offsetMin_ok_iff, marshalBinary]
  cases t.loc.offsetMin <;> simp [Except.map]

/-- What `MarshalBinary` writes, `UnmarshalBinary` reads back as the same time. -/
theorem unmarshalBinary_marshalBinary {t : Time} {b : List UInt8} (h : t.marshalBinary = .ok b) :
    unmarshalBinary b = .ok t := by
  obtain ⟨sec, nsec, loc⟩ := t
  simp only [marshalBinary] at h
  cases hm : loc.offsetMin with
  | error e => rw [hm] at h; cases h
  | ok m =>
      rw [hm] at h
      cases h
      have h8 : (Binary.beBytes 8 sec.toNat).length = 8 := Binary.length_beBytes _ _
      have h4 : (Binary.beBytes 4 nsec.toNat).length = 4 := Binary.length_beBytes _ _
      have h12 : (Binary.beBytes 8 sec.toNat ++ (Binary.beBytes 4 nsec.toNat ++ Binary.beBytes 2 m.toNat)).drop 12 =
          Binary.beBytes 2 m.toNat := by
        rw [← List.drop_drop 4 8, List.drop_left' h8, List.drop_left' h4]
      simp [unmarshalBinary, List.take_left' h8, List.drop_left' h8, List.take_left' h4, h12,
        Binary.ofNat_beNat_beBytes 8 sec (by decide), Binary.ofNat_beNat_beBytes 4 nsec (by decide),
        Binary.ofNat_beNat_beBytes 2 m (by decide), Location.ofOffset_offsetMin hm]

end Time

end PassiveBitcoin
