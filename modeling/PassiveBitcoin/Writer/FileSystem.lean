/-
# PassiveBitcoin.Writer.FileSystem — files and open handles

The file writer talks to the disk through `os.Create`, `(*File).WriteString`,
`Seek`, `Stat`, `io.Copy` and `Close`. This module models the part of a POSIX file
system those calls see: a map from names to byte contents, and a table of open
handles, each with the name it was opened under and its offset. A handle number is
never reused, which the structure carries as `handles_lt`.

What matters for the writer is what two handles on one name do. `create` truncates
the file in place (`O_TRUNC`) and leaves every other handle on it open with its
offset; `write` writes at the handle's offset, filling a gap past the end with zero
bytes; `readRest` reads from the handle's offset to the end. Each call has its lemmas
on the contents (`content_*`) and on the handles (`get_handles_*`) it leaves.

Every call succeeds on an open handle; on a closed one, as in Go, it fails (`stat`
is `none`) and changes nothing.
-/
import PassiveBitcoin.Go.Map

namespace PassiveBitcoin

set_option autoImplicit false

/-- The UTF-8 bytes of a Go string. -/
def bytesOf (s : String) : List UInt8 := s.data.flatMap String.utf8EncodeChar

/-- An open `*os.File`: the name it was opened under and its offset. -/
structure OpenFile where
  name : String
  offset : Nat
  deriving DecidableEq, Repr

/-- The disk and the table of open handles. -/
structure FileSystem where
  files : GoMap String (List UInt8)
  handles : GoMap Nat OpenFile
  /-- The number the next `create` hands out. -/
  nextFd : Nat
  handles_lt : ∀ fd ∈ handles, fd < nextFd

namespace FileSystem

/-- The disk holding `files`, no handle open. -/
def ofFiles (files : GoMap String (List UInt8)) : FileSystem :=
  ⟨files, ∅, 0, fun _ h => absurd h (AList.not_mem_empty _)⟩

/-- The content of a file, empty when there is none. -/
def content (fs : FileSystem) (name : String) : List UInt8 := (fs.files.get name).getD []

/-- `data` written over `c` at `offset`, a gap filled with zero bytes. -/
def writeAt (c : List UInt8) (offset : Nat) (data : List UInt8) : List UInt8 :=
  c.take offset ++ List.replicate (offset - c.length) 0 ++ data ++ c.drop (offset + data.length)

theorem handles_lt_set (fs : FileSystem) {fd : Nat} (hfd : fd ∈ fs.handles) (h : OpenFile) :
    ∀ fd' ∈ fs.handles.set fd h, fd' < fs.nextFd := by
  intro fd' hmem
  rcases GoMap.mem_set.mp hmem with rfl | hmem
  · exact fs.handles_lt _ hfd
  · exact fs.handles_lt _ hmem

/-- Replace the open handle `fd`. -/
def setHandle (fs : FileSystem) (fd : Nat) (hfd : fd ∈ fs.handles) (h : OpenFile) : FileSystem :=
  { fs with handles := fs.handles.set fd h, handles_lt := fs.handles_lt_set hfd h }

/-- `os.Create(name)`: the file truncated or made empty, and a new handle at offset 0. -/
def create (fs : FileSystem) (name : String) : FileSystem × Nat :=
  (⟨fs.files.set name [], fs.handles.set fs.nextFd ⟨name, 0⟩, fs.nextFd + 1, by
      intro fd hmem
      rcases GoMap.mem_set.mp hmem with rfl | hmem
      · exact Nat.lt_succ_self _
      · exact Nat.lt_succ_of_lt (fs.handles_lt _ hmem)⟩, fs.nextFd)

/-- `f.Write(data)` at the handle's offset. -/
def write (fs : FileSystem) (fd : Nat) (data : List UInt8) : FileSystem :=
  match h : fs.handles.get fd with
  | some o =>
      { fs.setHandle fd (GoMap.mem_of_get_eq_some h) { o with offset := o.offset + data.length } with
        files := fs.files.set o.name (writeAt (fs.content o.name) o.offset data) }
  | none => fs

/-- `f.Seek(0, 0)`. -/
def seekStart (fs : FileSystem) (fd : Nat) : FileSystem :=
  match h : fs.handles.get fd with
  | some o => fs.setHandle fd (GoMap.mem_of_get_eq_some h) { o with offset := 0 }
  | none => fs

/-- `f.Stat().Size()`, `none` when the handle is closed. -/
def stat (fs : FileSystem) (fd : Nat) : Option Nat :=
  (fs.handles.get fd).map fun o => (fs.content o.name).length

/-- `f.Name()`. -/
def name (fs : FileSystem) (fd : Nat) : String := ((fs.handles.get fd).map (·.name)).getD ""

/-- Reading a handle to the end, as `io.Copy` does: the bytes, and the handle at the end. -/
def readRest (fs : FileSystem) (fd : Nat) : List UInt8 × FileSystem :=
  match h : fs.handles.get fd with
  | some o =>
      ((fs.content o.name).drop o.offset,
        fs.setHandle fd (GoMap.mem_of_get_eq_some h) { o with offset := (fs.content o.name).length })
  | none => ([], fs)

/-- `f.Close()`. -/
def close (fs : FileSystem) (fd : Nat) : FileSystem :=
  { fs with handles := fs.handles.delete fd,
            handles_lt := fun _ h => fs.handles_lt _ (GoMap.mem_delete.mp h).2 }

/-! ## What each call does -/

section

variable {fs : FileSystem} {fd : Nat} {o : OpenFile}

@[simp] theorem writeAt_nil (data : List UInt8) : writeAt [] 0 data = data := by simp [writeAt]

/-- A write at the end of a file appends. -/
theorem writeAt_length (c data : List UInt8) : writeAt c c.length data = c ++ data := by simp [writeAt]

@[simp] theorem create_snd (fs : FileSystem) (n : String) : (fs.create n).2 = fs.nextFd := rfl

theorem get_handles_create (fs : FileSystem) (n : String) (k : Nat) :
    (fs.create n).1.handles.get k = if k = fs.nextFd then some ⟨n, 0⟩ else fs.handles.get k :=
  GoMap.get_set _ _ _ _

theorem content_create (fs : FileSystem) (n m : String) :
    (fs.create n).1.content m = if m = n then [] else fs.content m := by
  unfold content create
  split <;> simp_all

theorem ne_nextFd (hfd : fs.handles.get fd = some o) : fd ≠ fs.nextFd :=
  Nat.ne_of_lt (fs.handles_lt fd (GoMap.mem_of_get_eq_some hfd))

theorem content_write (hfd : fs.handles.get fd = some o) (data : List UInt8) (n : String) :
    (fs.write fd data).content n = if n = o.name then writeAt (fs.content o.name) o.offset data else fs.content n := by
  unfold write
  split <;> rename_i h <;> rw [hfd] at h <;> cases h
  unfold content
  split <;> simp_all

theorem get_handles_write (hfd : fs.handles.get fd = some o) (data : List UInt8) (k : Nat) :
    (fs.write fd data).handles.get k =
      if k = fd then some { o with offset := o.offset + data.length } else fs.handles.get k := by
  unfold write
  split <;> rename_i h <;> rw [hfd] at h <;> cases h
  exact GoMap.get_set _ _ _ _

theorem get_handles_write_ne (fd : Nat) (data : List UInt8) {k : Nat} (hk : k ≠ fd) :
    (fs.write fd data).handles.get k = fs.handles.get k := by
  unfold write
  split
  · exact GoMap.get_set_ne _ _ hk
  · rfl

@[simp] theorem nextFd_seekStart (fd : Nat) : (fs.seekStart fd).nextFd = fs.nextFd := by
  unfold seekStart
  split <;> rfl

theorem content_seekStart (fd : Nat) (n : String) : (fs.seekStart fd).content n = fs.content n := by
  unfold seekStart
  split <;> rfl

theorem get_handles_seekStart (hfd : fs.handles.get fd = some o) (k : Nat) :
    (fs.seekStart fd).handles.get k = if k = fd then some { o with offset := 0 } else fs.handles.get k := by
  unfold seekStart
  split <;> rename_i h <;> rw [hfd] at h <;> cases h
  exact GoMap.get_set _ _ _ _

theorem get_handles_seekStart_ne (fd : Nat) {k : Nat} (hk : k ≠ fd) :
    (fs.seekStart fd).handles.get k = fs.handles.get k := by
  unfold seekStart
  split
  · exact GoMap.get_set_ne _ _ hk
  · rfl

theorem readRest_fst (hfd : fs.handles.get fd = some o) :
    (fs.readRest fd).1 = (fs.content o.name).drop o.offset := by
  unfold readRest
  split <;> rename_i h <;> rw [hfd] at h <;> cases h
  rfl

theorem content_readRest (fd : Nat) (n : String) : (fs.readRest fd).2.content n = fs.content n := by
  unfold readRest
  split <;> rfl

theorem get_handles_readRest_ne (fd : Nat) {k : Nat} (hk : k ≠ fd) :
    (fs.readRest fd).2.handles.get k = fs.handles.get k := by
  unfold readRest
  split
  · exact GoMap.get_set_ne _ _ hk
  · rfl

@[simp] theorem content_close (fd : Nat) (n : String) : (fs.close fd).content n = fs.content n := rfl

theorem name_of_get (hfd : fs.handles.get fd = some o) : fs.name fd = o.name := by
  simp [name, hfd]

end

/-! ## The open handles each call leaves -/

/-- Two file systems with the same open handles, each possibly at another offset, and
the same next handle number. -/
structure SameHandles (fs fs' : FileSystem) : Prop where
  mem : ∀ k, k ∈ fs'.handles ↔ k ∈ fs.handles
  len : fs'.handles.len = fs.handles.len
  nextFd : fs'.nextFd = fs.nextFd

theorem SameHandles.trans {fs fs' fs'' : FileSystem} (h : SameHandles fs fs') (h' : SameHandles fs' fs'') :
    SameHandles fs fs'' :=
  ⟨fun k => (h'.mem k).trans (h.mem k), h'.len.trans h.len, h'.nextFd.trans h.nextFd⟩

theorem sameHandles_refl (fs : FileSystem) : SameHandles fs fs := ⟨fun _ => .rfl, rfl, rfl⟩

theorem sameHandles_setHandle (fs : FileSystem) {fd : Nat} (hfd : fd ∈ fs.handles) (h : OpenFile) :
    SameHandles fs (fs.setHandle fd hfd h) :=
  ⟨fun _ => GoMap.mem_set.trans ⟨fun h => h.elim (· ▸ hfd) id, .inr⟩, GoMap.len_set_of_mem _ hfd, rfl⟩

theorem sameHandles_write (fs : FileSystem) (fd : Nat) (data : List UInt8) : SameHandles fs (fs.write fd data) := by
  unfold write
  split
  · rename_i o h
    have hs := sameHandles_setHandle fs (GoMap.mem_of_get_eq_some h) { o with offset := o.offset + data.length }
    exact ⟨hs.mem, hs.len, hs.nextFd⟩
  · exact sameHandles_refl fs

theorem sameHandles_seekStart (fs : FileSystem) (fd : Nat) : SameHandles fs (fs.seekStart fd) := by
  unfold seekStart
  split
  · exact sameHandles_setHandle fs (GoMap.mem_of_get_eq_some ‹_›) _
  · exact sameHandles_refl fs

theorem sameHandles_readRest (fs : FileSystem) (fd : Nat) : SameHandles fs (fs.readRest fd).2 := by
  unfold readRest
  split
  · exact sameHandles_setHandle fs (GoMap.mem_of_get_eq_some ‹_›) _
  · exact sameHandles_refl fs

/-- `os.Create` opens one more handle, numbered `nextFd`. -/
theorem mem_handles_create (fs : FileSystem) (n : String) {k : Nat} :
    k ∈ (fs.create n).1.handles ↔ k = fs.nextFd ∨ k ∈ fs.handles :=
  GoMap.mem_set

theorem len_handles_create (fs : FileSystem) (n : String) : (fs.create n).1.handles.len = fs.handles.len + 1 :=
  GoMap.len_set_of_not_mem _ fun h => Nat.lt_irrefl _ (fs.handles_lt _ h)

@[simp] theorem nextFd_create (fs : FileSystem) (n : String) : (fs.create n).1.nextFd = fs.nextFd + 1 := rfl

theorem mem_handles_close (fs : FileSystem) (fd : Nat) {k : Nat} :
    k ∈ (fs.close fd).handles ↔ k ≠ fd ∧ k ∈ fs.handles :=
  GoMap.mem_delete

theorem len_handles_close {fs : FileSystem} {fd : Nat} (h : fd ∈ fs.handles) :
    (fs.close fd).handles.len + 1 = fs.handles.len :=
  GoMap.len_delete_of_mem h

end FileSystem

end PassiveBitcoin
