import CPong.Engine
import CPong.Lib.Memory

/-!
# Byte arrays with a cursor

`bin_array.h`. The buffer is the block that `malloc` returned, with whatever it holds;
an access outside it is a fault.
-/

namespace CPong

set_option autoImplicit false

open Lib (trunc)
open Lib.Words
open Lib.Memory

abbrev I16 := BitVec 16
abbrev U32 := BitVec 32

/-- The machine that one side runs on. -/
structure Host (F : Type) where
  endian : Endian
  /-- the conversion of a float that no `int32_t` can hold, which C leaves undefined -/
  convert : F → I32

structure Binarr where
  buf : List Byte
  size : Nat
  index : Nat
deriving DecidableEq, Repr

def binarrNew (block : List Byte) : Binarr := ⟨block, 0, 0⟩

/-- The `memcpy` of every `binarr_write_*`. -/
def binarrWrite (arr : Binarr) (data : List Byte) : Guarded Binarr := do
  let buf ← writeAt arr.buf arr.index data
  return { arr with buf := buf, index := arr.index + data.length }

def binarrAppend (arr : Binarr) (data : List Byte) : Guarded Binarr := do
  let arr ← binarrWrite arr data
  return { arr with size := arr.index }

def binarrRead (arr : Binarr) (n : Nat) : Guarded (List Byte × Binarr) := do
  let data ← readAt arr.buf arr.index n
  return (data, { arr with index := arr.index + n })

def binarrWriteI8 (arr : Binarr) (data : I8) : Guarded Binarr :=
  binarrWrite arr [data]

def binarrAppendI8 (arr : Binarr) (data : I8) : Guarded Binarr :=
  binarrAppend arr [data]

def binarrReadI8 (arr : Binarr) : Guarded (I8 × Binarr) := do
  let (data, arr) ← binarrRead arr 1
  return (load .little data, arr)

section Host
variable {F : Type} (host : Host F)

def htons (data : I16) : I16 := netOrder host.endian 2 data

def ntohs (data : I16) : I16 := netOrder host.endian 2 data

def htonl (data : I32) : I32 := netOrder host.endian 4 data

def ntohl (data : I32) : I32 := netOrder host.endian 4 data

def binarrWriteI16 (arr : Binarr) (data : I16) : Guarded Binarr :=
  binarrWrite arr (store host.endian 2 data)

def binarrAppendI16 (arr : Binarr) (data : I16) : Guarded Binarr :=
  binarrAppend arr (store host.endian 2 data)

def binarrAppendI16N (arr : Binarr) (data : I16) : Guarded Binarr :=
  binarrAppendI16 host arr (htons host data)

def binarrWriteI32 (arr : Binarr) (data : I32) : Guarded Binarr :=
  binarrWrite arr (store host.endian 4 data)

def binarrWriteI32N (arr : Binarr) (data : I32) : Guarded Binarr :=
  binarrWriteI32 host arr (htonl host data)

def binarrAppendI32 (arr : Binarr) (data : I32) : Guarded Binarr :=
  binarrAppend arr (store host.endian 4 data)

def binarrAppendI32N (arr : Binarr) (data : I32) : Guarded Binarr :=
  binarrAppendI32 host arr (htonl host data)

def binarrWriteU32 (arr : Binarr) (data : U32) : Guarded Binarr :=
  binarrWrite arr (store host.endian 4 data)

def binarrWriteU32N (arr : Binarr) (data : U32) : Guarded Binarr :=
  binarrWriteU32 host arr (htonl host data)

def binarrAppendU32 (arr : Binarr) (data : U32) : Guarded Binarr :=
  binarrAppend arr (store host.endian 4 data)

def binarrAppendU32N (arr : Binarr) (data : U32) : Guarded Binarr :=
  binarrAppendU32 host arr (htonl host data)

def binarrReadI16 (arr : Binarr) : Guarded (I16 × Binarr) := do
  let (data, arr) ← binarrRead arr 2
  return (load host.endian data, arr)

def binarrReadI16N (arr : Binarr) : Guarded (I16 × Binarr) := do
  let (data, arr) ← binarrReadI16 host arr
  return (ntohs host data, arr)

def binarrReadI32 (arr : Binarr) : Guarded (I32 × Binarr) := do
  let (data, arr) ← binarrRead arr 4
  return (load host.endian data, arr)

def binarrReadI32N (arr : Binarr) : Guarded (I32 × Binarr) := do
  let (data, arr) ← binarrReadI32 host arr
  return (ntohl host data, arr)

def binarrReadU32 (arr : Binarr) : Guarded (U32 × Binarr) := do
  let (data, arr) ← binarrRead arr 4
  return (load host.endian data, arr)

def binarrReadU32N (arr : Binarr) : Guarded (U32 × Binarr) := do
  let (data, arr) ← binarrReadU32 host arr
  return (ntohl host data, arr)

variable [Field F] [LinearOrder F] [FloorRing F]

def floatScale : F := 10000

def int32OfFloat (x : F) : I32 :=
  if -2 ^ 31 ≤ trunc x ∧ trunc x < 2 ^ 31 then BitVec.ofInt 32 (trunc x) else host.convert x

def binarrAppendFloatN (arr : Binarr) (data : F) : Guarded Binarr :=
  binarrAppendI32N host arr (int32OfFloat host (data * floatScale))

omit [LinearOrder F] [FloorRing F] in
def binarrReadFloatN (arr : Binarr) : Guarded (F × Binarr) := do
  let (ires, arr) ← binarrReadI32N host arr
  return ((ires.toInt : F) / floatScale, arr)

end Host

/-- An array whose first bytes are in use and whose cursor stands behind them. -/
def filled (used free : List Byte) : Binarr := ⟨used ++ free, used.length, used.length⟩

/-- An array of which `read` has been read and `unread` has not. -/
def cursor (read unread : List Byte) (size : Nat) : Binarr := ⟨read ++ unread, size, read.length⟩

@[simp] theorem filled_buf (used free : List Byte) : (filled used free).buf = used ++ free := rfl
@[simp] theorem filled_size (used free : List Byte) : (filled used free).size = used.length := rfl

theorem binarrNew_eq_filled (block : List Byte) : binarrNew block = filled [] block := rfl

theorem binarrAppend_filled {used free data : List Byte} (h : data.length ≤ free.length) :
    binarrAppend (filled used free) data =
      .ok (filled (used ++ data) (free.drop data.length)) := by
  have hwrite := writeAt_append used free data h
  simp [binarrAppend, binarrWrite, filled, hwrite]

/-- A write in place leaves the size as it is. -/
theorem binarrWrite_replace (pre old post data : List Byte) (size : Nat)
    (h : old.length = data.length) :
    binarrWrite ⟨pre ++ (old ++ post), size, pre.length⟩ data =
      .ok ⟨pre ++ (data ++ post), size, pre.length + data.length⟩ := by
  simp only [binarrWrite, writeAt_replace pre old post data h, ok_bind, pure_eq_ok]

theorem binarrRead_cursor (read data rest : List Byte) (size : Nat) :
    binarrRead (cursor read (data ++ rest) size) data.length =
      .ok (data, cursor (read ++ data) rest size) := by
  simp [binarrRead, cursor, readAt_append]

theorem binarrAppendI8_filled {used free : List Byte} (data : I8) (h : 1 ≤ free.length) :
    binarrAppendI8 (filled used free) data = .ok (filled (used ++ [data]) (free.drop 1)) :=
  binarrAppend_filled (by simpa using h)

theorem binarrReadI8_cursor (read rest : List Byte) (data : I8) (size : Nat) :
    binarrReadI8 (cursor read (data :: rest) size) =
      .ok (data, cursor (read ++ [data]) rest size) := by
  have h := binarrRead_cursor read [data] rest size
  simp only [List.cons_append, List.nil_append, List.length_singleton] at h
  simp only [binarrReadI8, h, ok_bind, pure_eq_ok, load_byte]

section Host
variable {F : Type} (host : Host F)

theorem binarrAppendI32N_filled {used free : List Byte} (data : I32) (h : 4 ≤ free.length) :
    binarrAppendI32N host (filled used free) data =
      .ok (filled (used ++ store .big 4 data) (free.drop 4)) := by
  have hstore : store host.endian 4 (htonl host data) = store .big 4 data :=
    store_netOrder host.endian (by decide) data
  rw [binarrAppendI32N, binarrAppendI32, hstore, binarrAppend_filled (by simpa using h),
    length_store]

theorem binarrWriteI32N_replace (pre old post : List Byte) (data : I32) (size : Nat)
    (h : old.length = 4) :
    binarrWriteI32N host ⟨pre ++ (old ++ post), size, pre.length⟩ data =
      .ok ⟨pre ++ (store .big 4 data ++ post), size, pre.length + 4⟩ := by
  have hstore : store host.endian 4 (htonl host data) = store .big 4 data :=
    store_netOrder host.endian (by decide) data
  rw [binarrWriteI32N, binarrWriteI32, hstore,
    binarrWrite_replace pre old post _ size (by rw [h, length_store]), length_store]

theorem binarrReadI32N_cursor (read rest : List Byte) (data : I32) (size : Nat) :
    binarrReadI32N host (cursor read (store .big 4 data ++ rest) size) =
      .ok (data, cursor (read ++ store .big 4 data) rest size) := by
  have h := binarrRead_cursor read (store .big 4 data) rest size
  rw [length_store] at h
  have hload : ntohl host (load host.endian (store .big 4 data)) = data :=
    netOrder_load_store host.endian (by decide) data
  simp only [binarrReadI32N, binarrReadI32, h, ok_bind, pure_eq_ok, hload]

theorem foldlM_binarrAppendI32N_filled (ws : List I32) {used free : List Byte}
    (h : 4 * ws.length ≤ free.length) :
    ws.foldlM (binarrAppendI32N host) (filled used free) =
      .ok (filled (used ++ ws.flatMap (store .big 4)) (free.drop (4 * ws.length))) := by
  induction ws generalizing used free with
  | nil => simp
  | cons w ws ih =>
    rw [List.length_cons] at h
    rw [List.foldlM_cons, binarrAppendI32N_filled host w (by omega)]
    have hfree : 4 * ws.length ≤ (free.drop 4).length := by
      rw [List.length_drop]
      omega
    have hdrop : 4 + 4 * ws.length = 4 * (ws.length + 1) := by omega
    simp only [ok_bind, ih hfree, List.flatMap_cons, List.append_assoc, List.drop_drop,
      List.length_cons, hdrop]

end Host

section Fixed
variable {F : Type} [Field F] [LinearOrder F] [FloorRing F] [IsStrictOrderedRing F]

/-- The value that a float has after its way through the wire. -/
def quantize (x : F) : F := (trunc (x * 10000) : F) / 10000

/-- The conversion to `int32_t` is defined and its value is the truncated one. -/
theorem int32OfFloat_toInt (host : Host F) {x : F} (h : |x * 10000| < 2 ^ 31) :
    (int32OfFloat host (x * floatScale)).toInt = trunc (x * 10000) := by
  have hb : |trunc (x * 10000)| < 2 ^ 31 := Lib.abs_trunc_lt (by exact_mod_cast h)
  obtain ⟨hlo, hhi⟩ := abs_lt.mp hb
  rw [int32OfFloat, floatScale, if_pos ⟨hlo.le, hhi⟩, BitVec.toInt_ofInt]
  simp only [Int.bmod]
  omega

end Fixed

end CPong
