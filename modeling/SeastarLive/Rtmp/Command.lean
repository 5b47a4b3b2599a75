/-
SeastarLive.Rtmp.Command — the arguments of a command.

A command is written with the `AMFWrite` functions of `3rd/libflv/source/amf0.c`, one for each
argument, and read with `amf_read_items` and a table. The types decide what is stored, and the
names where an argument is an object. As in the Release build, the default, assertions are not
compiled in: a value of an unknown type makes a reader fail, and does not end the process.

* `AmfArg.bytes`: what is written.
* `amfReadParams`: `amf_read_items`, with any table.
* `storeArgs`, `amfReadParams_args`: the table applied to the arguments is the table applied to
  their bytes.
-/
import SeastarLive.Flv.AmfItems
import SeastarLive.Rtmp.ChunkWrite

namespace SeastarLive

open Flv (AmfSlot AmfObjectItem AmfRead amfReadItem amfReadObject amfFindItem amfReadItemTypeCheck)

/-! ## Arguments -/

/-- A value that is no object. -/
inductive AmfScalar
  | string (s : List UInt8)
  /-- the eight bytes of a `double` -/
  | double (bytes : List UInt8)
  | boolean (b : Bool)
deriving DecidableEq

/-- An argument of a command. -/
inductive AmfArg
  | scalar (v : AmfScalar)
  | null
  | object (props : List (String × AmfScalar))
deriving DecidableEq

namespace AmfScalar

def type : AmfScalar → UInt8
  | string _ => Flv.amfString
  | double _ => Flv.amfNumber
  | boolean _ => Flv.amfBoolean

/-- The bytes behind the type. -/
def payload : AmfScalar → List UInt8
  | string s => amfWriteString16 s
  | double bytes => bytes
  | boolean b => [if b then 1 else 0]

def bytes (v : AmfScalar) : List UInt8 := v.type :: v.payload

/-- A value that fits its bytes. -/
def Fits : AmfScalar → Prop
  | string s => s.length < 65536
  | double bytes => bytes.length = 8
  | boolean _ => True

instance (v : AmfScalar) : Decidable v.Fits := by
  cases v <;> unfold Fits <;> infer_instance

end AmfScalar

namespace AmfArg

def type : AmfArg → UInt8
  | scalar v => v.type
  | null => Flv.amfNull
  | object _ => Flv.amfObject

/-- A property of an object: `AMFWriteNamedString` and its like. -/
def propBytes (prop : String × AmfScalar) : List UInt8 :=
  amfWriteString16 (asciiBytes prop.1) ++ prop.2.bytes

/-- The bytes behind the type. -/
def payload : AmfArg → List UInt8
  | scalar v => v.payload
  | null => []
  | object props => props.flatMap propBytes ++ [0, 0, 9]

def bytes (a : AmfArg) : List UInt8 := a.type :: a.payload

/-- A property whose name and value fit. -/
structure PropFits (prop : String × AmfScalar) : Prop where
  name : asciiBytes prop.1 ≠ [] ∧ (asciiBytes prop.1).length < 65536
  value : prop.2.Fits

def Fits : AmfArg → Prop
  | scalar v => v.Fits
  | null => True
  | object props => ∀ prop ∈ props, PropFits prop

end AmfArg

/-- What a list of arguments is written as. -/
def argsBytes (args : List AmfArg) : List UInt8 := args.flatMap AmfArg.bytes

/-! ## Tables -/

/-- `amf_object_item_t` for an argument: a value, or an object with a table of its own. -/
structure AmfParam (σ : Type) where
  type : UInt8
  slot : AmfSlot σ := .ignored
  props : List (AmfObjectItem σ) := []

section Params

variable {σ : Type}

/-- `amf_read_item` for an argument whose type was checked. -/
def amfReadParam (param : AmfParam σ) (type : UInt8) (values : σ) (data : List UInt8) :
    AmfRead σ :=
  if param.type = Flv.amfObject then
    if type = Flv.amfObject then amfReadObject false (data.length + 2) param.props values data
    else if type = Flv.amfEcmaArray then
      if data.length < 4 then .null
      else amfReadObject false (data.length + 2) param.props values (data.drop 4)
    else .done values data
  else amfReadItem false (data.length + 2) type param.slot values data

/-- `amf_read_items`. The Release build has no assertions. -/
def amfReadParams : List (AmfParam σ) → σ → List UInt8 → AmfRead σ
  | [], values, data => .done values data
  | _ :: _, values, [] => .done values []
  | param :: params, values, type :: data =>
      if amfReadItemTypeCheck type param.type then
        match amfReadParam param type values data with
        | .done values rest => amfReadParams params values rest
        | stop => stop
      else .null

/-! ## Tables and arguments -/

/-- Where a value goes. -/
def AmfScalar.put (slot : AmfSlot σ) (values : σ) : AmfScalar → σ
  | .string s =>
      match slot with
      | .string size store => if s.length < size then store s values else values
      | _ => values
  | .double bytes =>
      match slot with
      | .number store => store bytes values
      | _ => values
  | .boolean b =>
      match slot with
      | .boolean store => store (if b then 1 else 0) values
      | _ => values

/-- Where a property goes. -/
def putProp (props : List (AmfObjectItem σ)) (values : σ) (prop : String × AmfScalar) : σ :=
  prop.2.put (amfFindItem props (asciiBytes prop.1) prop.2.type) values

def AmfParam.put (param : AmfParam σ) (values : σ) : AmfArg → σ
  | .scalar v => v.put param.slot values
  | .null => values
  | .object props => props.foldl (putProp param.props) values

/-- The arguments that a table takes off the front, and those that it leaves. -/
def storeArgs : List (AmfParam σ) → σ → List AmfArg → Option (σ × List AmfArg)
  | [], values, args => some (values, args)
  | _ :: _, values, [] => some (values, [])
  | param :: params, values, arg :: args =>
      if amfReadItemTypeCheck arg.type param.type then storeArgs params (param.put values arg) args
      else none

/-! ## Reading what was written -/

/-- The length of a string in its two bytes. -/
theorem string16_length {n : Nat} (hn : n < 65536) :
    (UInt8.ofNat (n / 256)).toNat * 256 + (UInt8.ofNat n).toNat = n := by
  simp only [UInt8.toNat_ofNat']
  omega

/-- A value is read into its slot. -/
theorem amfReadItem_scalar {v : AmfScalar} (hv : v.Fits) (fuel : Nat) (slot : AmfSlot σ)
    (values : σ) (rest : List UInt8) :
    amfReadItem false (fuel + 1) v.type slot values (v.payload ++ rest)
      = .done (v.put slot values) rest := by
  rw [amfReadItem]
  cases v with
  | string s =>
      have hlen : Flv.bigEndian ((amfWriteString16 s ++ rest).take 2) = s.length := by
        have hlength := string16_length hv
        simpa [Flv.bigEndian, amfWriteString16] using hlength
      have htext : (amfWriteString16 s ++ rest).drop 2 = s ++ rest := rfl
      have htwo : ¬ (amfWriteString16 s ++ rest).length < 2 := by
        simp [amfWriteString16]
      show Flv.amfReadStringItem 2 slot values (amfWriteString16 s ++ rest) = _
      simp only [Flv.amfReadStringItem, if_neg htwo, htext, hlen]
      rw [if_neg (by simp), List.take_left' rfl, List.drop_left' rfl]
      cases slot <;> rfl
  | double bytes =>
      have hlength : bytes.length = 8 := hv
      show Flv.amfReadDouble slot values (bytes ++ rest) = _
      unfold Flv.amfReadDouble
      rw [if_neg (by simp [hlength]), List.take_left' hlength, List.drop_left' hlength]
      cases slot <;> rfl
  | boolean b => cases slot <;> rfl

/-- The loop of `amf_read_object` takes one property off the front. -/
theorem amfReadObject_prop {prop : String × AmfScalar} (hprop : AmfArg.PropFits prop) (fuel : Nat)
    (props : List (AmfObjectItem σ)) (values : σ) (rest : List UInt8) :
    amfReadObject false (fuel + 2) props values (AmfArg.propBytes prop ++ rest)
      = amfReadObject false (fuel + 1) props (putProp props values prop) rest := by
  obtain ⟨hname, hlt⟩ := hprop.name
  have hlength := string16_length hlt
  have hpositive : (asciiBytes prop.1).length ≠ 0 := mt List.length_eq_zero_iff.mp hname
  have hbytes : AmfArg.propBytes prop ++ rest
      = UInt8.ofNat ((asciiBytes prop.1).length / 256)
        :: UInt8.ofNat (asciiBytes prop.1).length
        :: (asciiBytes prop.1 ++ prop.2.type :: (prop.2.payload ++ rest)) := by
    simp [AmfArg.propBytes, amfWriteString16, AmfScalar.bytes]
  rw [hbytes, amfReadObject]
  simp only [hlength, if_neg hpositive, List.drop_left' rfl, List.take_left' rfl,
    amfReadItem_scalar hprop.value]
  rfl

/-- The properties go to the table one by one, in order. -/
theorem amfReadObject_props (table : List (AmfObjectItem σ)) {props : List (String × AmfScalar)}
    (hprops : ∀ prop ∈ props, AmfArg.PropFits prop) {fuel : Nat} (hfuel : props.length < fuel)
    (values : σ) (rest : List UInt8) :
    amfReadObject false fuel table values (props.flatMap AmfArg.propBytes ++ ([0, 0, 9] ++ rest))
      = .done (props.foldl (putProp table) values) rest := by
  induction props generalizing fuel values with
  | nil =>
      obtain ⟨fuel, rfl⟩ := Nat.exists_eq_add_one.mpr hfuel
      rw [List.flatMap_nil, List.nil_append, List.cons_append, List.cons_append, amfReadObject]
      simp [Flv.amfReadObjectEnd, Flv.amfObjectEnd]
  | cons prop props ih =>
      rw [List.length_cons] at hfuel
      obtain ⟨fuel, rfl⟩ : ∃ k, fuel = k + 2 := ⟨fuel - 2, by omega⟩
      rw [List.flatMap_cons, List.append_assoc,
        amfReadObject_prop (hprops prop List.mem_cons_self)]
      exact ih (fun x hx => hprops x (List.mem_cons_of_mem prop hx)) (by omega) _

theorem length_le_propBytes (props : List (String × AmfScalar)) :
    props.length ≤ (props.flatMap AmfArg.propBytes).length := by
  induction props with
  | nil => exact Nat.zero_le 0
  | cons prop props ih =>
      have hpos : 1 ≤ (AmfArg.propBytes prop).length := by
        simp [AmfArg.propBytes, amfWriteString16]
      rw [List.length_cons, List.flatMap_cons, List.length_append]
      omega

/-- An argument of the right type is stored. -/
theorem amfReadParam_arg {arg : AmfArg} (harg : arg.Fits) {param : AmfParam σ}
    (htype : amfReadItemTypeCheck arg.type param.type = true) (values : σ) (rest : List UInt8) :
    amfReadParam param arg.type values (arg.payload ++ rest)
      = .done (param.put values arg) rest := by
  unfold amfReadParam
  cases arg with
  | scalar v =>
      have hvalue : param.type ≠ Flv.amfObject := by
        intro hobject
        rw [hobject] at htype
        have hnone : amfReadItemTypeCheck v.type Flv.amfObject = false := by cases v <;> rfl
        exact Bool.false_ne_true (hnone.symm.trans htype)
      rw [if_neg hvalue]
      exact amfReadItem_scalar harg _ param.slot values rest
  | null =>
      split
      · rfl
      · rw [amfReadItem]
        rfl
  | object props =>
      have hobject : param.type = Flv.amfObject := by
        have hcheck : amfReadItemTypeCheck Flv.amfObject param.type = true := htype
        have hne : ¬ (Flv.amfObject = Flv.amfEcmaArray ∨ Flv.amfObject = Flv.amfNull) := by decide
        simp only [amfReadItemTypeCheck, Bool.or_eq_true, beq_iff_eq, Bool.and_eq_true, hne,
          and_false, or_false] at hcheck
        exact hcheck.symm
      have hlength := length_le_propBytes props
      rw [if_pos hobject]
      show amfReadObject false _ param.props values
        (props.flatMap AmfArg.propBytes ++ [0, 0, 9] ++ rest) = _
      rw [List.append_assoc]
      refine amfReadObject_props param.props harg ?_ values rest
      simp only [AmfArg.payload, List.length_append]
      omega

/-- A table on the bytes of arguments is the table on the arguments. -/
theorem amfReadParams_args (params : List (AmfParam σ)) {args : List AmfArg}
    (hargs : ∀ arg ∈ args, arg.Fits) (values : σ) :
    amfReadParams params values (argsBytes args)
      = match storeArgs params values args with
        | some (values, rest) => .done values (argsBytes rest)
        | none => .null := by
  induction params generalizing args values with
  | nil => rfl
  | cons param params ih =>
      cases args with
      | nil => rfl
      | cons arg args =>
          have hbytes : argsBytes (arg :: args)
              = arg.type :: (arg.payload ++ argsBytes args) := by
            simp [argsBytes, AmfArg.bytes]
          rw [hbytes]
          simp only [amfReadParams, storeArgs]
          by_cases htype : amfReadItemTypeCheck arg.type param.type = true
          · simp only [if_pos htype, amfReadParam_arg (hargs arg List.mem_cons_self) htype]
            exact ih (fun x hx => hargs x (List.mem_cons_of_mem arg hx)) _
          · simp only [if_neg htype]

end Params

end SeastarLive
