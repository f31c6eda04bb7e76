/-
# PassiveBitcoin.Recorder.AddressRecord — the binary form of an `addr` record

The recorder turns each `addr` message a peer receives into an `AddressRecord`: the
time it was received, the remote and local addresses of the connection, the command,
and one entry per announced address. `Bytes` writes it little-endian through
`binary.Write`, one call per field (`AddressRecord.bytes`, a list of those calls).

The format the record is meant to have is `AddressHeader.write`: a 47-byte header (the
time in nanoseconds, both addresses as sixteen-byte IPs with their ports, the command
code, the entry count), then the entries. `readAddressRecord` reads that format back.
`bytes_spec` is the format's law for every record whose addresses have four- or
sixteen-byte IPs and whose entries are 30 bytes each, up to the protocol's 1000
entries: `Bytes` writes exactly the format, `47 + 30 * N` bytes, and reading it back
gives the header of the record and its entries with nothing left over.

The entries' type (`EntryRecord`), their `Bytes` and `ParseCommand` are not under src/;
they are parameters, the last returning one byte as `binary.Write` writes it.
-/
import PassiveBitcoin.Go.Binary
import PassiveBitcoin.Go.Time
import PassiveBitcoin.Net.TCPAddr

namespace PassiveBitcoin

set_option autoImplicit false

open Binary

/-- An `AddressRecord` whose entries are of type `Entry`. The addresses are the
connection's, never nil. -/
structure AddressRecord (Entry : Type) where
  stamp : Time
  la : TCPAddr
  ra : TCPAddr
  cmd : String
  addrs : List Entry

/-- The header of the binary record format, as its fields are read. -/
structure AddressHeader where
  stamp : BitVec 64
  remoteIP : List UInt8
  remotePort : BitVec 16
  localIP : List UInt8
  localPort : BitVec 16
  command : UInt8
  count : BitVec 16
  deriving DecidableEq, Repr

namespace AddressHeader

/-- The format's header: `int64 timestamp_ns || 16B remote_ip || u16 remote_port ||
16B local_ip || u16 local_port || u8 command_code || u16 entry_count`, little-endian. -/
def write (h : AddressHeader) : List UInt8 :=
  leBytes 8 h.stamp.toNat ++ h.remoteIP ++ leBytes 2 h.remotePort.toNat ++ h.localIP ++
    leBytes 2 h.localPort.toNat ++ [h.command] ++ leBytes 2 h.count.toNat

theorem length_write (h : AddressHeader) (hr : h.remoteIP.length = 16) (hl : h.localIP.length = 16) :
    h.write.length = 47 := by
  simp [write, hr, hl]

end AddressHeader

/-! ## Reading the format -/

/-- The next `n` bytes and the rest, if there are `n`. -/
def takeBytes (n : Nat) (data : List UInt8) : Option (List UInt8 × List UInt8) :=
  if n ≤ data.length then some (data.take n, data.drop n) else none

theorem takeBytes_append {n : Nat} {a : List UInt8} (b : List UInt8) (h : a.length = n) :
    takeBytes n (a ++ b) = some (a, b) := by
  simp [takeBytes, ← h]

/-- A read of `n` bytes from data that starts with `n` given bytes hands them to the rest
of the reader. -/
theorem takeBytes_append_bind {α : Type} {n : Nat} {a : List UInt8} (b : List UInt8) (h : a.length = n)
    (f : List UInt8 × List UInt8 → Option α) : takeBytes n (a ++ b) >>= f = f (a, b) := by
  rw [takeBytes_append b h]
  rfl

/-- Reads a header, field by field. -/
def readHeader (data : List UInt8) : Option (AddressHeader × List UInt8) := do
  let (stamp, data) ← takeBytes 8 data
  let (remoteIP, data) ← takeBytes 16 data
  let (remotePort, data) ← takeBytes 2 data
  let (localIP, data) ← takeBytes 16 data
  let (localPort, data) ← takeBytes 2 data
  let (command, data) ← takeBytes 1 data
  let (count, data) ← takeBytes 2 data
  pure (⟨BitVec.ofNat 64 (leNat stamp), remoteIP, BitVec.ofNat 16 (leNat remotePort), localIP,
    BitVec.ofNat 16 (leNat localPort), UInt8.ofNat (leNat command), BitVec.ofNat 16 (leNat count)⟩, data)

/-- Reads `n` entries of 30 bytes. -/
def readEntries : Nat → List UInt8 → Option (List (List UInt8) × List UInt8)
  | 0, data => some ([], data)
  | n + 1, data => do
      let (entry, data) ← takeBytes 30 data
      let (entries, data) ← readEntries n data
      pure (entry :: entries, data)

/-- Reads a record: its header, then as many entries as the header counts. -/
def readAddressRecord (data : List UInt8) : Option (AddressHeader × List (List UInt8) × List UInt8) := do
  let (header, data) ← readHeader data
  let (entries, data) ← readEntries header.count.toNat data
  pure (header, entries, data)

theorem readHeader_write (h : AddressHeader) (hr : h.remoteIP.length = 16) (hl : h.localIP.length = 16)
    (rest : List UInt8) : readHeader (h.write ++ rest) = some (h, rest) := by
  simp only [AddressHeader.write, List.append_assoc, readHeader,
    takeBytes_append_bind _ (length_leBytes _ _), takeBytes_append_bind _ hr, takeBytes_append_bind _ hl,
    takeBytes_append_bind _ (List.length_singleton h.command)]
  have hcommand : UInt8.ofNat (leNat [h.command]) = h.command :=
    UInt8.toNat.inj (UInt8.toNat_ofNat_of_lt (by simpa [leNat] using h.command.toNat_lt_size))
  simp only [ofNat_leNat_leBytes 8 h.stamp (by decide), ofNat_leNat_leBytes 2 h.remotePort (by decide),
    ofNat_leNat_leBytes 2 h.localPort (by decide), ofNat_leNat_leBytes 2 h.count (by decide), hcommand]
  rfl

theorem readEntries_flatten (rest : List UInt8) :
    ∀ entries : List (List UInt8), (∀ e ∈ entries, e.length = 30) →
      readEntries entries.length (entries.flatten ++ rest) = some (entries, rest)
  | [], _ => rfl
  | e :: entries, h => by
      simp only [List.length_cons, readEntries, List.flatten_cons, List.append_assoc,
        takeBytes_append_bind _ (h e (List.mem_cons_self _ _)),
        readEntries_flatten rest entries fun e he => h e (List.mem_cons_of_mem _ he)]
      rfl

theorem length_flatten_of_length {L : List (List UInt8)} {n : Nat} (h : ∀ e ∈ L, e.length = n) :
    L.flatten.length = n * L.length := by
  induction L with
  | nil => simp
  | cons e L ih =>
      rw [List.flatten_cons, List.length_append, h e (List.mem_cons_self _ _),
        ih fun e he => h e (List.mem_cons_of_mem _ he), List.length_cons, Nat.mul_succ, Nat.add_comm]

theorem readAddressRecord_write (h : AddressHeader) (hr : h.remoteIP.length = 16) (hl : h.localIP.length = 16)
    (entries : List (List UInt8)) (hcount : h.count.toNat = entries.length) (hentries : ∀ e ∈ entries, e.length = 30) :
    readAddressRecord (h.write ++ entries.flatten) = some (h, entries, []) := by
  have hflat := readEntries_flatten [] entries hentries
  rw [List.append_nil] at hflat
  have hhead := readHeader_write h hr hl entries.flatten
  simp only [readAddressRecord, hhead, Option.bind_eq_bind, Option.some_bind, hcount, hflat]
  rfl

/-! ## `Bytes` -/

namespace AddressRecord

variable {Entry : Type} (parseCommand : String → UInt8) (entryBytes : Entry → List UInt8)

/-- `NewAddressRecord(msg, ra, la)` received at `now`, for a message with command `command`
whose address list `NewAddressInfoRecord` turns into `addrs`. -/
def newAddressRecord (now : Time) (command : String) (addrs : List Entry) (ra la : TCPAddr) : AddressRecord Entry :=
  ⟨now, la, ra, command, addrs⟩

/-- `ar.Bytes()`: the `binary.Write` calls in order. `To16` is nil for an IP of another
length than four or sixteen, and then nothing is written for it. -/
def bytes (ar : AddressRecord Entry) : List UInt8 :=
  ([Data.int64 ar.stamp.unixNano,
    .bytes ((TCPAddr.to16 ar.ra.ip).getD []),
    .uint16 (BitVec.ofInt 16 ar.ra.port),
    .bytes ((TCPAddr.to16 ar.la.ip).getD []),
    .uint16 (BitVec.ofInt 16 ar.la.port),
    .uint8 (parseCommand ar.cmd),
    .uint16 (BitVec.ofNat 16 ar.addrs.length)] ++
    ar.addrs.map fun addr => Data.bytes (entryBytes addr)).flatMap Data.writeLE

/-- The header of the format for a record's fields. -/
def header (ar : AddressRecord Entry) : AddressHeader :=
  ⟨ar.stamp.unixNano, (TCPAddr.to16 ar.ra.ip).getD [], BitVec.ofInt 16 ar.ra.port,
    (TCPAddr.to16 ar.la.ip).getD [], BitVec.ofInt 16 ar.la.port, parseCommand ar.cmd,
    BitVec.ofNat 16 ar.addrs.length⟩

/-- `Bytes` writes the format's header for the record's fields, then the entries. -/
theorem bytes_eq (ar : AddressRecord Entry) :
    ar.bytes parseCommand entryBytes = (ar.header parseCommand).write ++ (ar.addrs.map entryBytes).flatten := by
  simp [bytes, header, AddressHeader.write, Data.writeLE, List.flatMap, Function.comp_def]

theorem to16_of_length {ip : List UInt8} (h : ip.length = 4 ∨ ip.length = 16) :
    ∃ ip16, TCPAddr.to16 ip = some ip16 ∧ ip16.length = 16 := by
  unfold TCPAddr.to16
  rcases h with h | h
  · exact ⟨_, if_pos h, by simp [h]⟩
  · exact ⟨_, by rw [if_neg (by omega), if_pos h], h⟩

theorem toNat_ofInt_of_lt {x : Int} (h0 : 0 ≤ x) (h : x < 2 ^ 16) : ((BitVec.ofInt 16 x).toNat : Int) = x := by
  rw [BitVec.toNat_ofInt, Int.toNat_of_nonneg (Int.emod_nonneg _ (by decide)), Int.emod_eq_of_lt h0 (by simpa using h)]

/-- For every record whose addresses have IPs of four or sixteen bytes and ports below
`2 ^ 16`, with at most 1000 entries of 30 bytes: `Bytes` is the format's header and the
entries in order, `47 + 30 * N` bytes long; reading it back gives that header and the
entries and consumes all of it; and the header holds the record's fields — the IPs as
`To16` gives them, the ports and the entry count as numbers. -/
theorem bytes_spec (ar : AddressRecord Entry)
    (hra : ar.ra.ip.length = 4 ∨ ar.ra.ip.length = 16) (hla : ar.la.ip.length = 4 ∨ ar.la.ip.length = 16)
    (hraPort : ar.ra.port < 2 ^ 16) (hlaPort : ar.la.port < 2 ^ 16)
    (hcount : ar.addrs.length ≤ 1000) (hentries : ∀ e ∈ ar.addrs, (entryBytes e).length = 30) :
    ar.bytes parseCommand entryBytes = (ar.header parseCommand).write ++ (ar.addrs.map entryBytes).flatten ∧
      (ar.bytes parseCommand entryBytes).length = 47 + 30 * ar.addrs.length ∧
      readAddressRecord (ar.bytes parseCommand entryBytes) =
        some (ar.header parseCommand, ar.addrs.map entryBytes, []) ∧
      TCPAddr.to16 ar.ra.ip = some (ar.header parseCommand).remoteIP ∧
      TCPAddr.to16 ar.la.ip = some (ar.header parseCommand).localIP ∧
      (0 ≤ ar.ra.port → ((ar.header parseCommand).remotePort.toNat : Int) = ar.ra.port) ∧
      (0 ≤ ar.la.port → ((ar.header parseCommand).localPort.toNat : Int) = ar.la.port) ∧
      (ar.header parseCommand).count.toNat = ar.addrs.length := by
  obtain ⟨ra16, hra16, hralen⟩ := to16_of_length hra
  obtain ⟨la16, hla16, hlalen⟩ := to16_of_length hla
  have hr : (ar.header parseCommand).remoteIP.length = 16 := by simp [header, hra16, hralen]
  have hl : (ar.header parseCommand).localIP.length = 16 := by simp [header, hla16, hlalen]
  have hN : (ar.header parseCommand).count.toNat = ar.addrs.length := by
    simp only [header, BitVec.toNat_ofNat]
    exact Nat.mod_eq_of_lt (by omega)
  have hmap : ∀ e ∈ ar.addrs.map entryBytes, e.length = 30 := List.forall_mem_map.mpr hentries
  refine ⟨bytes_eq parseCommand entryBytes ar, ?_, ?_, by simp [header, hra16], by simp [header, hla16],
    fun h0 => toNat_ofInt_of_lt h0 hraPort, fun h0 => toNat_ofInt_of_lt h0 hlaPort, hN⟩
  · rw [bytes_eq, List.length_append, AddressHeader.length_write _ hr hl, length_flatten_of_length hmap,
      List.length_map]
  · rw [bytes_eq]
    exact readAddressRecord_write _ hr hl _ (by rw [hN, List.length_map]) hmap

/-- One entry, an IPv4 remote and an IPv6 local address: 77 bytes, read back whole. -/
theorem bytes_spec_one_entry :
    let ar : AddressRecord (List UInt8) :=
      ⟨.zero, ⟨List.replicate 15 0 ++ [1], 18333, ""⟩, ⟨[10, 0, 0, 1], 8333, ""⟩, "addr", [List.replicate 30 7]⟩
    let parseCommand : String → UInt8 := fun _ => 1
    (ar.bytes parseCommand id).length = 77 ∧
      readAddressRecord (ar.bytes parseCommand id) = some (ar.header parseCommand, [List.replicate 30 7], []) ∧
      (ar.header parseCommand).count.toNat = 1 := by
  intro ar parseCommand
  have h := bytes_spec parseCommand id ar (by decide) (by decide) (by decide) (by decide) (by decide) (by decide)
  exact ⟨h.2.1, h.2.2.1, h.2.2.2.2.2.2.2⟩

end AddressRecord

end PassiveBitcoin
