import Mathlib.Data.Nat.ModEq
import Mathlib.Tactic.Ring

/-!
# Fixed-width words in memory

A word of `n` bytes lies in memory in the byte order of its host. `netOrder` is the
host's conversion to and from network order, the big-endian one.
-/

namespace Lib.Words

set_option autoImplicit false

abbrev Byte := BitVec 8

inductive Endian where
  | little
  | big
deriving DecidableEq, Repr

def lowBytes : Nat → Nat → List Byte
  | 0, _ => []
  | n + 1, v => BitVec.ofNat 8 v :: lowBytes n (v / 256)

def fromLow : List Byte → Nat
  | [] => 0
  | b :: bs => b.toNat + 256 * fromLow bs

def arrange : Endian → List Byte → List Byte
  | .little, bs => bs
  | .big, bs => bs.reverse

def store {w : Nat} (e : Endian) (n : Nat) (v : BitVec w) : List Byte :=
  arrange e (lowBytes n v.toNat)

def load {w : Nat} (e : Endian) (bs : List Byte) : BitVec w :=
  BitVec.ofNat w (fromLow (arrange e bs))

/-- `hton` and `ntoh` are one function: the identity on a big-endian host and a byte
reversal on a little-endian one. -/
def netOrder {w : Nat} (e : Endian) (n : Nat) (v : BitVec w) : BitVec w :=
  match e with
  | .big => v
  | .little => load .big (store .little n v)

@[simp] theorem length_lowBytes (n v : Nat) : (lowBytes n v).length = n := by
  induction n generalizing v with
  | zero => rfl
  | succ n ih => rw [lowBytes, List.length_cons, ih]

@[simp] theorem length_arrange (e : Endian) (bs : List Byte) :
    (arrange e bs).length = bs.length := by
  cases e <;> simp [arrange]

@[simp] theorem arrange_arrange (e : Endian) (bs : List Byte) :
    arrange e (arrange e bs) = bs := by
  cases e <;> simp [arrange]

@[simp] theorem length_store {w : Nat} (e : Endian) (n : Nat) (v : BitVec w) :
    (store e n v).length = n := by
  simp [store]

theorem fromLow_lowBytes (n v : Nat) : fromLow (lowBytes n v) = v % 256 ^ n := by
  induction n generalizing v with
  | zero => simp [lowBytes, fromLow, Nat.mod_one]
  | succ n ih =>
    have hmod : v % 256 ^ (n + 1) = v % 256 + 256 * (v / 256 % 256 ^ n) := by
      rw [Nat.pow_succ', Nat.mod_mul]
    rw [lowBytes, fromLow, ih, hmod]
    simp

theorem lowBytes_fromLow (bs : List Byte) : lowBytes bs.length (fromLow bs) = bs := by
  induction bs with
  | nil => rfl
  | cons b bs ih =>
    have hb : b.toNat < 256 := b.isLt
    have hdiv : (b.toNat + 256 * fromLow bs) / 256 = fromLow bs := by omega
    rw [List.length_cons, lowBytes, fromLow, hdiv, ih]
    congr 1
    apply BitVec.eq_of_toNat_eq
    rw [BitVec.toNat_ofNat]
    omega

theorem fromLow_lt (bs : List Byte) : fromLow bs < 256 ^ bs.length := by
  induction bs with
  | nil => simp [fromLow]
  | cons b bs ih =>
    have hb : b.toNat < 256 := b.isLt
    rw [fromLow, List.length_cons, Nat.pow_succ]
    omega

theorem load_store {w : Nat} (e : Endian) {n : Nat} (hn : w = 8 * n) (v : BitVec w) :
    load e (store e n v) = v := by
  have hlt : v.toNat < 256 ^ n := by
    have hw : 2 ^ w = 256 ^ n := by rw [hn, Nat.pow_mul]
    exact hw ▸ v.isLt
  apply BitVec.eq_of_toNat_eq
  rw [load, store, arrange_arrange, fromLow_lowBytes, Nat.mod_eq_of_lt hlt, BitVec.toNat_ofNat,
    Nat.mod_eq_of_lt v.isLt]

theorem store_load {w : Nat} (e : Endian) {n : Nat} (hn : w = 8 * n) {bs : List Byte}
    (hbs : bs.length = n) : store e n (load e bs : BitVec w) = bs := by
  have hlt : fromLow (arrange e bs) < 2 ^ w := by
    have h := fromLow_lt (arrange e bs)
    rwa [length_arrange, hbs, show 256 = 2 ^ 8 by rfl, ← Nat.pow_mul, ← hn] at h
  rw [store, load, BitVec.toNat_ofNat, Nat.mod_eq_of_lt hlt, ← hbs,
    ← length_arrange e bs, lowBytes_fromLow, arrange_arrange]

@[simp] theorem store_byte (e : Endian) (b : Byte) : store e 1 b = [b] := by
  cases e <;> simp [store, lowBytes, arrange]

@[simp] theorem load_byte (e : Endian) (b : Byte) : (load e [b] : Byte) = b := by
  have hload := load_store e (n := 1) rfl b
  rwa [store_byte] at hload

/-- Whatever the host, a word converted to network order lies in memory big end first. -/
theorem store_netOrder {w : Nat} (e : Endian) {n : Nat} (hn : w = 8 * n) (v : BitVec w) :
    store e n (netOrder e n v) = store .big n v := by
  cases e with
  | big => rfl
  | little =>
    have h : store .big n (netOrder .little n v) = store .little n v :=
      store_load .big hn (length_store _ _ _)
    simp only [store, arrange] at h ⊢
    rw [← h, List.reverse_reverse]

theorem netOrder_load {w : Nat} (e : Endian) {n : Nat} (hn : w = 8 * n) {bs : List Byte}
    (hbs : bs.length = n) : netOrder e n (load e bs : BitVec w) = load .big bs := by
  cases e with
  | big => rfl
  | little => rw [netOrder, store_load .little hn hbs]

theorem netOrder_load_store {w : Nat} (e : Endian) {n : Nat} (hn : w = 8 * n) (v : BitVec w) :
    netOrder e n (load e (store .big n v)) = v := by
  rw [netOrder_load e hn (length_store _ _ _), load_store .big hn]

end Lib.Words
