import CPong.Lib.Words

/-!
# Values laid out in bytes

A codec of fixed width for each kind of value, and lists of values of mixed kinds that lie
one behind the other.
-/

namespace Lib.Layout

set_option autoImplicit false

open Words

/-- A representation by a fixed number of bytes. -/
structure ByteCodec (α : Type) where
  width : Nat
  encode : α → List Byte
  decode : List Byte → α
  length_encode : ∀ a, (encode a).length = width
  decode_encode : ∀ a, decode (encode a) = a

attribute [simp] ByteCodec.length_encode ByteCodec.decode_encode

/-- A word of `n` bytes in the order of `e`. -/
def ByteCodec.word {w : Nat} (e : Endian) (n : Nat) (hn : w = 8 * n) : ByteCodec (BitVec w) where
  width := n
  encode := store e n
  decode := load e
  length_encode := length_store e n
  decode_encode := load_store e hn

section Sequence
variable {ι : Type} {V : ι → Type} (codec : (i : ι) → ByteCodec (V i))

def span (kinds : List ι) : Nat := (kinds.map fun i => (codec i).width).sum

def bytes (items : List (Σ i, V i)) : List Byte :=
  items.flatMap fun item => (codec item.1).encode item.2

def parse : List ι → List Byte → List (Σ i, V i)
  | [], _ => []
  | i :: kinds, bs =>
    ⟨i, (codec i).decode (bs.take (codec i).width)⟩ :: parse kinds (bs.drop (codec i).width)

@[simp] theorem span_nil : span codec [] = 0 := rfl

@[simp] theorem span_cons (i : ι) (kinds : List ι) :
    span codec (i :: kinds) = (codec i).width + span codec kinds := by
  simp only [span, List.map_cons, List.sum_cons]

@[simp] theorem span_append (kinds kinds' : List ι) :
    span codec (kinds ++ kinds') = span codec kinds + span codec kinds' := by
  simp only [span, List.map_append, List.sum_append]

@[simp] theorem bytes_nil : bytes codec [] = [] := rfl

@[simp] theorem bytes_cons (item : Σ i, V i) (items : List (Σ i, V i)) :
    bytes codec (item :: items) = (codec item.1).encode item.2 ++ bytes codec items := rfl

@[simp] theorem bytes_append (items items' : List (Σ i, V i)) :
    bytes codec (items ++ items') = bytes codec items ++ bytes codec items' :=
  List.flatMap_append

@[simp] theorem length_bytes (items : List (Σ i, V i)) :
    (bytes codec items).length = span codec (items.map Sigma.fst) := by
  induction items with
  | nil => rfl
  | cons item items ih =>
    rw [bytes_cons, List.length_append, ByteCodec.length_encode, ih, List.map_cons, span_cons]

theorem parse_cons (i : ι) (kinds : List ι) {data : List Byte} (rest : List Byte)
    (h : data.length = (codec i).width) :
    parse codec (i :: kinds) (data ++ rest) =
      ⟨i, (codec i).decode data⟩ :: parse codec kinds rest := by
  rw [parse, List.take_left' h, List.drop_left' h]

theorem parse_append (items : List (Σ i, V i)) (kinds : List ι) (rest : List Byte) :
    parse codec (items.map Sigma.fst ++ kinds) (bytes codec items ++ rest) =
      items ++ parse codec kinds rest := by
  induction items with
  | nil => rfl
  | cons item items ih =>
    rw [List.map_cons, List.cons_append, bytes_cons, List.append_assoc,
      parse_cons codec _ _ _ (ByteCodec.length_encode _ _), ih, ByteCodec.decode_encode,
      List.cons_append]

theorem parse_bytes (items : List (Σ i, V i)) :
    parse codec (items.map Sigma.fst) (bytes codec items) = items := by
  have h := parse_append codec items [] []
  rwa [List.append_nil, List.append_nil, parse, List.append_nil] at h

/-- Other bytes in the place of one value change that value and no other. -/
theorem parse_replace (pre : List (Σ i, V i)) (i : ι) (post : List (Σ i, V i))
    {data : List Byte} (h : data.length = (codec i).width) :
    parse codec (pre.map Sigma.fst ++ i :: post.map Sigma.fst)
        (bytes codec pre ++ (data ++ bytes codec post)) =
      pre ++ ⟨i, (codec i).decode data⟩ :: post := by
  rw [parse_append, parse_cons codec i _ _ h, parse_bytes]

end Sequence

end Lib.Layout
