import CPong.BinArray
import CPong.Lib.Layout

/-!
# Typed values in a byte array

Any list of values appended with the `binarr_append_*` of their types, and read back with
the matching `binarr_read_*`.
-/

namespace CPong

set_option autoImplicit false

open Lib.Words
open Lib.Memory
open Lib.Layout

/-- The forms in which `bin_array.h` stores an integer; `N` is network order. -/
inductive IntForm where
  | i8
  | i16
  | i16N
  | i32
  | i32N
  | u32
  | u32N
deriving DecidableEq, Repr

/-- `sizeof` of the type. -/
def IntForm.width : IntForm → Nat
  | .i8 => 1
  | .i16 => 2
  | .i16N => 2
  | .i32 => 4
  | .i32N => 4
  | .u32 => 4
  | .u32N => 4

def formsWidth (forms : List IntForm) : Nat := (forms.map IntForm.width).sum

def IntForm.Value : IntForm → Type
  | .i8 => I8
  | .i16 => I16
  | .i16N => I16
  | .i32 => I32
  | .i32N => I32
  | .u32 => U32
  | .u32N => U32

abbrev TypedValue := Σ form : IntForm, form.Value

section Host
variable {F : Type} (host : Host F)

def binarrAppendValue (arr : Binarr) : TypedValue → Guarded Binarr
  | ⟨.i8, data⟩ => binarrAppendI8 arr data
  | ⟨.i16, data⟩ => binarrAppendI16 host arr data
  | ⟨.i16N, data⟩ => binarrAppendI16N host arr data
  | ⟨.i32, data⟩ => binarrAppendI32 host arr data
  | ⟨.i32N, data⟩ => binarrAppendI32N host arr data
  | ⟨.u32, data⟩ => binarrAppendU32 host arr data
  | ⟨.u32N, data⟩ => binarrAppendU32N host arr data

def binarrReadValue (arr : Binarr) : (form : IntForm) → Guarded (form.Value × Binarr)
  | .i8 => binarrReadI8 arr
  | .i16 => binarrReadI16 host arr
  | .i16N => binarrReadI16N host arr
  | .i32 => binarrReadI32 host arr
  | .i32N => binarrReadI32N host arr
  | .u32 => binarrReadU32 host arr
  | .u32N => binarrReadU32N host arr

/-- There is no `binarr_write_i16_n`. -/
def binarrWriteValue (arr : Binarr) : (value : TypedValue) → value.1 ≠ .i16N → Guarded Binarr
  | ⟨.i8, data⟩, _ => binarrWriteI8 arr data
  | ⟨.i16, data⟩, _ => binarrWriteI16 host arr data
  | ⟨.i16N, _⟩, h => absurd rfl h
  | ⟨.i32, data⟩, _ => binarrWriteI32 host arr data
  | ⟨.i32N, data⟩, _ => binarrWriteI32N host arr data
  | ⟨.u32, data⟩, _ => binarrWriteU32 host arr data
  | ⟨.u32N, data⟩, _ => binarrWriteU32N host arr data

def binarrAppendValues (arr : Binarr) (values : List TypedValue) : Guarded Binarr :=
  values.foldlM (binarrAppendValue host) arr

def binarrReadValues (arr : Binarr) : List IntForm → Guarded (List TypedValue × Binarr)
  | [] => .ok ([], arr)
  | form :: forms => do
    let (data, arr) ← binarrReadValue host arr form
    let (values, arr) ← binarrReadValues arr forms
    return (⟨form, data⟩ :: values, arr)

/-- The bytes that each form has in the buffer. -/
def intCodec : (form : IntForm) → ByteCodec form.Value
  | .i8 => .word .little 1 rfl
  | .i16 => .word host.endian 2 rfl
  | .i16N => .word .big 2 rfl
  | .i32 => .word host.endian 4 rfl
  | .i32N => .word .big 4 rfl
  | .u32 => .word host.endian 4 rfl
  | .u32N => .word .big 4 rfl

@[simp] theorem intCodec_width (form : IntForm) : (intCodec host form).width = form.width := by
  cases form <;> rfl

theorem span_intCodec (forms : List IntForm) :
    span (intCodec host) forms = formsWidth forms := by
  simp only [span, formsWidth, intCodec_width]

/-- What a read of `form` makes of the bytes that a write of `value` leaves. -/
def readAs (form : IntForm) (value : TypedValue) : form.Value :=
  (intCodec host form).decode ((intCodec host value.1).encode value.2)

theorem readAs_same {form : IntForm} {value : TypedValue} (h : value.1 = form) :
    (⟨form, readAs host form value⟩ : TypedValue) = value := by
  subst h
  rw [readAs, ByteCodec.decode_encode]

theorem binarrAppendValue_filled (value : TypedValue) {used free : List Byte}
    (h : (intCodec host value.1).width ≤ free.length) :
    binarrAppendValue host (filled used free) value =
      .ok (filled (used ++ (intCodec host value.1).encode value.2)
        (free.drop (intCodec host value.1).width)) := by
  obtain ⟨form, data⟩ := value
  have hlen : ((intCodec host form).encode data).length ≤ free.length := by
    rwa [ByteCodec.length_encode]
  have happend := @binarrAppend_filled used free _ hlen
  rw [ByteCodec.length_encode] at happend
  rw [← happend]
  cases form with
  | i8 => exact congrArg (binarrAppend _) (store_byte .little data).symm
  | i16 => rfl
  | i16N => exact congrArg (binarrAppend _) (store_netOrder (w := 16) (n := 2) _ rfl data)
  | i32 => rfl
  | i32N => exact congrArg (binarrAppend _) (store_netOrder (w := 32) (n := 4) _ rfl data)
  | u32 => rfl
  | u32N => exact congrArg (binarrAppend _) (store_netOrder (w := 32) (n := 4) _ rfl data)

section Read
variable (read rest : List Byte) {data : List Byte} (size : Nat)

theorem binarrReadI16_cursor (h : data.length = 2) :
    binarrReadI16 host (cursor read (data ++ rest) size) =
      .ok (load host.endian data, cursor (read ++ data) rest size) := by
  rw [binarrReadI16, ← h, binarrRead_cursor]
  rfl

theorem binarrReadI32_cursor (h : data.length = 4) :
    binarrReadI32 host (cursor read (data ++ rest) size) =
      .ok (load host.endian data, cursor (read ++ data) rest size) := by
  rw [binarrReadI32, ← h, binarrRead_cursor]
  rfl

theorem binarrReadI16N_cursor (h : data.length = 2) :
    binarrReadI16N host (cursor read (data ++ rest) size) =
      .ok (load .big data, cursor (read ++ data) rest size) := by
  have hnet : ntohs host (load host.endian data) = load .big data :=
    netOrder_load host.endian rfl h
  rw [binarrReadI16N, binarrReadI16_cursor host read rest size h, ok_bind]
  simp only [hnet, pure_eq_ok]

theorem binarrReadI32N_cursor_data (h : data.length = 4) :
    binarrReadI32N host (cursor read (data ++ rest) size) =
      .ok (load .big data, cursor (read ++ data) rest size) := by
  have hread := binarrReadI32N_cursor host read rest (load .big data) size
  rwa [store_load .big rfl h] at hread

theorem binarrReadValue_cursor (form : IntForm) (h : data.length = (intCodec host form).width) :
    binarrReadValue host (cursor read (data ++ rest) size) form =
      .ok ((intCodec host form).decode data, cursor (read ++ data) rest size) := by
  cases form with
  | i8 =>
    have hone : data.length = 1 := h
    have hdata : data = [load .little data] := by
      rw [← store_byte .little, store_load .little rfl hone]
    have hread := binarrReadI8_cursor read rest (load .little data) size
    rw [← List.singleton_append, ← hdata] at hread
    exact hread
  | i16 => exact binarrReadI16_cursor host read rest size h
  | i16N => exact binarrReadI16N_cursor host read rest size h
  | i32 => exact binarrReadI32_cursor host read rest size h
  | i32N => exact binarrReadI32N_cursor_data host read rest size h
  | u32 => exact binarrReadI32_cursor host read rest size h
  | u32N => exact binarrReadI32N_cursor_data host read rest size h

end Read

theorem binarrWriteValue_replace (value : TypedValue) (hvalue : value.1 ≠ .i16N)
    (pre old post : List Byte) (size : Nat) (h : old.length = (intCodec host value.1).width) :
    binarrWriteValue host ⟨pre ++ (old ++ post), size, pre.length⟩ value hvalue =
      .ok ⟨pre ++ ((intCodec host value.1).encode value.2 ++ post), size,
        pre.length + (intCodec host value.1).width⟩ := by
  obtain ⟨form, data⟩ := value
  have hwrite := binarrWrite_replace pre old post ((intCodec host form).encode data) size
    (by rwa [ByteCodec.length_encode])
  rw [ByteCodec.length_encode] at hwrite
  rw [← hwrite]
  cases form with
  | i8 => exact congrArg (binarrWrite _) (store_byte .little data).symm
  | i16 => rfl
  | i16N => exact absurd rfl hvalue
  | i32 => rfl
  | i32N => exact congrArg (binarrWrite _) (store_netOrder (w := 32) (n := 4) _ rfl data)
  | u32 => rfl
  | u32N => exact congrArg (binarrWrite _) (store_netOrder (w := 32) (n := 4) _ rfl data)

theorem binarrAppendValues_filled (values : List TypedValue) {used free : List Byte}
    (h : formsWidth (values.map Sigma.fst) ≤ free.length) :
    binarrAppendValues host (filled used free) values =
      .ok (filled (used ++ bytes (intCodec host) values)
        (free.drop (formsWidth (values.map Sigma.fst)))) := by
  rw [← span_intCodec host] at h ⊢
  unfold binarrAppendValues
  induction values generalizing used free with
  | nil =>
    rw [bytes_nil, List.append_nil]
    rfl
  | cons value values ih =>
    rw [List.map_cons, span_cons] at h ⊢
    have hfree : span (intCodec host) (values.map Sigma.fst) ≤
        (free.drop (intCodec host value.1).width).length := by
      rw [List.length_drop]
      omega
    have hvalue : (intCodec host value.1).width ≤ free.length := by omega
    rw [List.foldlM_cons, binarrAppendValue_filled host value hvalue, ok_bind, ih hfree,
      bytes_cons, List.append_assoc, List.drop_drop]

theorem binarrReadValues_cursor (forms : List IntForm) (read rest : List Byte) {data : List Byte}
    (size : Nat) (h : data.length = formsWidth forms) :
    binarrReadValues host (cursor read (data ++ rest) size) forms =
      .ok (parse (intCodec host) forms data, cursor (read ++ data) rest size) := by
  rw [← span_intCodec host] at h
  induction forms generalizing read data with
  | nil =>
    have hnil : data = [] := List.length_eq_zero_iff.mp h
    rw [hnil, List.append_nil]
    rfl
  | cons form forms ih =>
    rw [span_cons] at h
    have htake : (data.take (intCodec host form).width).length = (intCodec host form).width := by
      rw [List.length_take]
      omega
    have hdrop : (data.drop (intCodec host form).width).length =
        span (intCodec host) forms := by
      rw [List.length_drop]
      omega
    have hsplit := List.take_append_drop (intCodec host form).width data
    generalize data.take (intCodec host form).width = first at htake hsplit
    generalize data.drop (intCodec host form).width = others at hdrop hsplit
    subst hsplit
    have hread := binarrReadValue_cursor host read (others ++ rest) size form htake
    have hothers := ih (read ++ first) hdrop
    rw [parse_cons _ _ _ _ htake, List.append_assoc]
    simp only [binarrReadValues, hread, hothers, ok_bind, pure_eq_ok, List.append_assoc]

@[simp] theorem length_bytes_intCodec (values : List TypedValue) :
    (bytes (intCodec host) values).length = formsWidth (values.map Sigma.fst) := by
  rw [length_bytes, span_intCodec]

theorem binarrReadValues_start (forms : List IntForm) {data : List Byte} (rest : List Byte)
    (size : Nat) (h : data.length = formsWidth forms) :
    binarrReadValues host ⟨data ++ rest, size, 0⟩ forms =
      .ok (parse (intCodec host) forms data, ⟨data ++ rest, size, formsWidth forms⟩) := by
  have hread := binarrReadValues_cursor host forms [] rest size h
  rw [List.nil_append] at hread
  rw [← h]
  exact hread

/-- A write in the place of one value leaves bytes that read as the others and it. -/
theorem binarrWriteValue_inPlace (pre : List TypedValue) (value : TypedValue)
    (post : List TypedValue) (free : List Byte) {new : TypedValue} (hnew : new.1 ≠ .i16N)
    (hwidth : new.1.width = value.1.width) :
    ∃ data index', data.length = formsWidth ((pre ++ value :: post).map Sigma.fst) ∧
      parse (intCodec host) ((pre ++ value :: post).map Sigma.fst) data =
        pre ++ ⟨value.1, readAs host value.1 new⟩ :: post ∧
      binarrWriteValue host { filled (bytes (intCodec host) (pre ++ value :: post)) free with
          index := formsWidth (pre.map Sigma.fst) } new hnew =
        .ok ⟨data ++ free, formsWidth ((pre ++ value :: post).map Sigma.fst), index'⟩ := by
  have hencode : ((intCodec host new.1).encode new.2).length = (intCodec host value.1).width := by
    rw [ByteCodec.length_encode, intCodec_width, intCodec_width, hwidth]
  have hold : ((intCodec host value.1).encode value.2).length = (intCodec host new.1).width := by
    rw [ByteCodec.length_encode, intCodec_width, intCodec_width, hwidth]
  have hwrite := binarrWriteValue_replace host new hnew (bytes (intCodec host) pre) _
    (bytes (intCodec host) post ++ free)
    (formsWidth ((pre ++ value :: post).map Sigma.fst)) hold
  rw [length_bytes_intCodec] at hwrite
  refine ⟨bytes (intCodec host) pre ++ ((intCodec host new.1).encode new.2 ++
    bytes (intCodec host) post), formsWidth (pre.map Sigma.fst) + (intCodec host new.1).width,
    ?_, ?_, ?_⟩
  · rw [List.length_append, List.length_append, hencode, length_bytes, length_bytes,
      List.map_append, List.map_cons, ← span_intCodec host, span_append, span_cons]
  · rw [List.map_append, List.map_cons, parse_replace _ _ _ _ hencode]
    rfl
  · simp only [filled_buf, filled_size, length_bytes_intCodec]
    simp only [bytes_append, bytes_cons, List.append_assoc]
    exact hwrite

/-- Whatever typed values are appended to a fresh array with room for them, the matching
reads return them, and neither uses a byte behind them. A write in place changes what one of
the reads returns. -/
theorem typedValues_roundTrip (values : List TypedValue) (block : List Byte)
    (hroom : formsWidth (values.map Sigma.fst) ≤ block.length) :
    ∃ arr, binarrAppendValues host (binarrNew block) values = .ok arr ∧
      arr.size = formsWidth (values.map Sigma.fst) ∧
      arr.buf.drop arr.size = block.drop arr.size ∧
      binarrReadValues host { arr with index := 0 } (values.map Sigma.fst) =
        .ok (values, { arr with index := arr.size }) ∧
      (∀ rest, binarrReadValues host ⟨arr.buf.take arr.size ++ rest, arr.size, 0⟩
          (values.map Sigma.fst) =
        .ok (values, ⟨arr.buf.take arr.size ++ rest, arr.size, arr.size⟩)) ∧
      ∀ pre value post, values = pre ++ value :: post →
        ∀ (new : TypedValue) (hnew : new.1 ≠ .i16N), new.1.width = value.1.width →
          ∃ arr', binarrWriteValue host
              { arr with index := formsWidth (pre.map Sigma.fst) } new hnew = .ok arr' ∧
            arr'.size = arr.size ∧ arr'.buf.drop arr.size = block.drop arr.size ∧
            binarrReadValues host { arr' with index := 0 } (values.map Sigma.fst) =
              .ok (pre ++ ⟨value.1, readAs host value.1 new⟩ :: post,
                { arr' with index := arr.size }) ∧
            (new.1 = value.1 → ⟨value.1, readAs host value.1 new⟩ = new) := by
  have hlen := length_bytes_intCodec host values
  have happend : binarrAppendValues host (filled [] block) values = _ :=
    binarrAppendValues_filled host values hroom
  rw [List.nil_append] at happend
  refine ⟨_, happend, hlen, ?_, ?_, ?_, ?_⟩
  · rw [filled_size, filled_buf, List.drop_left, hlen]
  · have hread := binarrReadValues_start host (values.map Sigma.fst)
      (block.drop (formsWidth (values.map Sigma.fst))) (bytes (intCodec host) values).length hlen
    rw [parse_bytes, ← hlen] at hread
    rw [← hlen]
    exact hread
  · intro rest
    have hread := binarrReadValues_start host (values.map Sigma.fst) rest
      (bytes (intCodec host) values).length hlen
    rw [filled_size, filled_buf, List.take_left]
    rwa [parse_bytes, ← hlen] at hread
  · intro pre value post hvalues new hnew hwidth
    obtain ⟨data, index', hdata, hparse, hwrite⟩ := binarrWriteValue_inPlace host pre value post
      (block.drop (formsWidth (values.map Sigma.fst))) hnew hwidth
    rw [← hvalues] at hdata hparse hwrite
    have hread := binarrReadValues_start host (values.map Sigma.fst)
      (block.drop (formsWidth (values.map Sigma.fst))) (formsWidth (values.map Sigma.fst)) hdata
    rw [hparse] at hread
    refine ⟨_, hwrite, hlen.symm, ?_, ?_, readAs_same host⟩
    · rw [filled_size, hlen, ← hdata, List.drop_left]
    · rw [filled_size, hlen]
      exact hread

end Host

/-- A negative byte, a negative 16-bit value in network order and a 32-bit one in host order. -/
def someValues : List TypedValue := [⟨.i8, (-3 : I8)⟩, ⟨.i16N, (-2 : I16)⟩, ⟨.i32, (5 : I32)⟩]

theorem typedValues_roundTrip_someValues :
    ∃ arr, binarrAppendValues (⟨.little, id⟩ : Host I32) (binarrNew (List.replicate 9 0))
        someValues = .ok arr ∧
      arr.size = 7 ∧
      binarrReadValues (⟨.little, id⟩ : Host I32) { arr with index := 0 }
          (someValues.map Sigma.fst) = .ok (someValues, { arr with index := arr.size }) ∧
      ∃ arr' arr'', binarrWriteI16 (⟨.little, id⟩ : Host I32) { arr with index := 1 } 1 =
          .ok arr' ∧
        binarrReadValues (⟨.little, id⟩ : Host I32) { arr' with index := 0 }
          (someValues.map Sigma.fst) =
            .ok ([⟨.i8, (-3 : I8)⟩, ⟨.i16N, (256 : I16)⟩, ⟨.i32, (5 : I32)⟩], arr'') := by
  obtain ⟨arr, happend, hsize, -, hread, -, hwrite⟩ :=
    typedValues_roundTrip (⟨.little, id⟩ : Host I32) someValues (List.replicate 9 0) (by decide)
  obtain ⟨arr', hwrite, -, -, hread', -⟩ := hwrite [⟨.i8, (-3 : I8)⟩] ⟨.i16N, (-2 : I16)⟩
    [⟨.i32, (5 : I32)⟩] rfl ⟨.i16, (1 : I16)⟩ (by decide) rfl
  exact ⟨arr, happend, hsize, hread, arr', _, hwrite, hread'⟩

end CPong
