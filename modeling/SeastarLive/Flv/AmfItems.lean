/-
SeastarLive.Flv.AmfItems — the AMF values of a script packet.

`amf_read_items` of `3rd/libflv/source/amf0.c` for a table of one item, an
object with a table of properties. A property the table names, with the type
it gives, is stored; everything else is read past.

* `asserts` is whether assertions are compiled in: a value of an unknown
  type is `assert(0)`, and a null pointer where it returns.
* The readers call each other on what is left of the buffer. They take
  `fuel`, and `amfReadItems_settled` says that they have enough of it.
-/
import SeastarLive.Flv.AmfCommand

namespace SeastarLive.Flv

/-! ## Types -/

def amfNumber : UInt8 := 0
def amfBoolean : UInt8 := 1
def amfObject : UInt8 := 3
def amfNull : UInt8 := 5
def amfUndefined : UInt8 := 6
def amfEcmaArray : UInt8 := 8
def amfObjectEnd : UInt8 := 9
def amfStrictArray : UInt8 := 10
def amfDate : UInt8 := 11
def amfLongString : UInt8 := 12

/-- Where `amf_object_item_t::value` points. -/
inductive AmfSlot (σ : Type)
  /-- Nowhere, or at a table whose own items point nowhere. -/
  | ignored
  | boolean (store : UInt8 → σ → σ)
  /-- The eight bytes of a `double`, big-endian. -/
  | number (store : List UInt8 → σ → σ)
  /-- A buffer of `size` bytes. -/
  | string (size : Nat) (store : List UInt8 → σ → σ)

/-- `amf_object_item_t`. -/
structure AmfObjectItem (σ : Type) where
  type : UInt8
  name : String
  slot : AmfSlot σ := .ignored

/-- What a reader returns. -/
inductive AmfRead (σ : Type)
  /-- The values stored so far, and what is left. -/
  | done (values : σ) (rest : List UInt8)
  /-- A null pointer. -/
  | null
  /-- An assertion fails. -/
  | aborts
  | outOfFuel
deriving DecidableEq

/-- `amf_read_item_type_check`. -/
def amfReadItemTypeCheck (type itemType : UInt8) : Bool :=
  type == itemType || (itemType == amfObject && (type == amfEcmaArray || type == amfNull))

/-- A big-endian number. -/
def bigEndian (bytes : List UInt8) : Nat := bytes.foldl (fun n b => n * 256 + b.toNat) 0

/-! ## Values -/

section Values

variable {σ : Type}

/-- `AMFReadBoolean`. -/
def amfReadBoolean (slot : AmfSlot σ) (values : σ) : List UInt8 → AmfRead σ
  | [] => .null
  | b :: rest =>
      match slot with
      | .boolean store => .done (store b values) rest
      | _ => .done values rest

/-- `AMFReadDouble`. -/
def amfReadDouble (slot : AmfSlot σ) (values : σ) (data : List UInt8) : AmfRead σ :=
  if data.length < 8 then .null
  else
    match slot with
    | .number store => .done (store (data.take 8) values) (data.drop 8)
    | _ => .done values (data.drop 8)

/-- `AMFReadString`, with a length of `width` bytes; a string that does not fit its buffer
    is not copied. -/
def amfReadStringItem (width : Nat) (slot : AmfSlot σ) (values : σ) (data : List UInt8) :
    AmfRead σ :=
  if data.length < width then .null
  else
    let len := bigEndian (data.take width)
    let text := data.drop width
    if text.length < len then .null
    else
      match slot with
      | .string size store =>
          .done (if len < size then store (text.take len) values else values) (text.drop len)
      | _ => .done values (text.drop len)

/-- `AMFReadDate`; no table has an item for it. -/
def amfReadDate (values : σ) (data : List UInt8) : AmfRead σ :=
  if data.length < 10 then .null else .done values (data.drop 10)

end Values

/-! ## Objects -/

section Objects

variable {σ : Type} (asserts : Bool)

/-- The item of a table for a property. -/
def amfFindItem (items : List (AmfObjectItem σ)) (name : List UInt8) (type : UInt8) :
    AmfSlot σ :=
  match items.find? fun item =>
      item.name.toList == name.map (fun b => Char.ofNat b.toNat)
        && amfReadItemTypeCheck type item.type with
  | some item => item.slot
  | none => .ignored

/-- The end of `amf_read_object`. -/
def amfReadObjectEnd (values : σ) : List UInt8 → AmfRead σ
  | b :: rest => if b = amfObjectEnd then .done values rest else .null
  | [] => .null

mutual

/-- `amf_read_item`. -/
def amfReadItem : Nat → UInt8 → AmfSlot σ → σ → List UInt8 → AmfRead σ
  | 0, _, _, _, _ => .outOfFuel
  | fuel + 1, type, slot, values, data =>
      if type = amfBoolean then amfReadBoolean slot values data
      else if type = amfNumber then amfReadDouble slot values data
      else if type = amfString then amfReadStringItem 2 slot values data
      else if type = amfLongString then amfReadStringItem 4 slot values data
      else if type = amfDate then amfReadDate values data
      else if type = amfObject then amfReadObject fuel [] values data
      else if type = amfNull ∨ type = amfUndefined then .done values data
      else if type = amfEcmaArray then
        if data.length < 4 then .null else amfReadObject fuel [] values (data.drop 4)
      else if type = amfStrictArray then
        if data.length < 4 then .null
        else amfReadStrictArray fuel (bigEndian (data.take 4)) values (data.drop 4)
      else if asserts then .aborts
      else .null

/-- The loop of `amf_read_strict_array`, with `count` items to go. -/
def amfReadStrictArray : Nat → Nat → σ → List UInt8 → AmfRead σ
  | 0, _, _, _ => .outOfFuel
  | _ + 1, 0, values, data => .done values data
  | _ + 1, _ + 1, values, [] => .done values []
  | fuel + 1, count + 1, values, type :: data =>
      match amfReadItem fuel type .ignored values data with
      | .done values rest => amfReadStrictArray fuel count values rest
      | stop => stop

/-- `amf_read_object`. -/
def amfReadObject : Nat → List (AmfObjectItem σ) → σ → List UInt8 → AmfRead σ
  | 0, _, _, _ => .outOfFuel
  | fuel + 1, items, values, b₀ :: b₁ :: rest =>
      let len := b₀.toNat * 256 + b₁.toNat
      if len = 0 then amfReadObjectEnd values rest
      else
        match rest.drop len with
        -- the name and the type byte behind it do not fit
        | [] => .null
        | type :: data =>
            match amfReadItem fuel type (amfFindItem items (rest.take len) type) values data with
            | .done values rest => amfReadObject fuel items values rest
            | stop => stop
  | _ + 1, _, values, data => amfReadObjectEnd values data

end

/-- `amf_read_items` for the one item `onMetaData`, an object with the given properties. -/
def amfReadItems (props : List (AmfObjectItem σ)) (values : σ) : List UInt8 → AmfRead σ
  | [] => .done values []
  | type :: data =>
      if type = amfObject then amfReadObject asserts (data.length + 2) props values data
      else if type = amfEcmaArray then
        if data.length < 4 then .null
        else amfReadObject asserts (data.length + 2) props values (data.drop 4)
      else if type = amfNull then .done values data
      else .null

end Objects

/-! ## Fuel -/

/-- A reader that does not run out of fuel, leaves at most `n` bytes, and stops on an
    assertion only where assertions are compiled in. -/
def AmfRead.Settled {σ : Type} (asserts : Bool) (n : Nat) (r : AmfRead σ) : Prop :=
  match r with
  | .done _ rest => rest.length ≤ n
  | .null => True
  | .aborts => asserts = true
  | .outOfFuel => False

section Fuel

variable {σ : Type} (asserts : Bool)

theorem AmfRead.Settled.mono {asserts : Bool} {n m : Nat} {r : AmfRead σ}
    (h : r.Settled asserts n) (hle : n ≤ m) : r.Settled asserts m := by
  cases r with
  | done values rest => exact Nat.le_trans h hle
  | null => trivial
  | aborts => exact h
  | outOfFuel => exact h

theorem AmfRead.Settled.ite {asserts : Bool} {n : Nat} {c : Prop} [Decidable c] {r r' : AmfRead σ}
    (h : r.Settled asserts n) (h' : r'.Settled asserts n) :
    (if c then r else r').Settled asserts n := by
  split
  · exact h
  · exact h'

/-- A reader that goes on with what another one left. -/
theorem AmfRead.Settled.followedBy {asserts : Bool} {n m : Nat} {r : AmfRead σ}
    (h : r.Settled asserts n) {next : σ → List UInt8 → AmfRead σ}
    (hnext : ∀ values rest, rest.length ≤ n → (next values rest).Settled asserts m) :
    (match r with
      | .done values rest => next values rest
      | stop => stop).Settled asserts m := by
  cases r with
  | done values rest => exact hnext values rest h
  | null => trivial
  | aborts => exact h
  | outOfFuel => exact h

theorem amfReadBoolean_settled (slot : AmfSlot σ) (values : σ) (data : List UInt8) :
    (amfReadBoolean slot values data).Settled asserts data.length := by
  cases data with
  | nil => trivial
  | cons b rest =>
      unfold amfReadBoolean
      cases slot <;> simp [AmfRead.Settled]

theorem amfReadDouble_settled (slot : AmfSlot σ) (values : σ) (data : List UInt8) :
    (amfReadDouble slot values data).Settled asserts data.length := by
  unfold amfReadDouble
  split
  · trivial
  · cases slot <;> simp [AmfRead.Settled]

theorem amfReadStringItem_settled (width : Nat) (slot : AmfSlot σ) (values : σ)
    (data : List UInt8) :
    (amfReadStringItem width slot values data).Settled asserts data.length := by
  simp only [amfReadStringItem]
  split
  · trivial
  split
  · trivial
  cases slot <;> simp only [AmfRead.Settled, List.length_drop] <;> omega

theorem amfReadDate_settled (values : σ) (data : List UInt8) :
    (amfReadDate values data).Settled asserts data.length := by
  unfold amfReadDate
  split
  · trivial
  · simp [AmfRead.Settled]

theorem amfReadObjectEnd_settled (values : σ) (data : List UInt8) :
    (amfReadObjectEnd values data).Settled asserts data.length := by
  unfold amfReadObjectEnd
  split
  · split
    · simp [AmfRead.Settled]
    · trivial
  · trivial

/-- The three readers do not run out of this fuel on buffers that are short enough. -/
structure AmfSettles (σ : Type) (asserts : Bool) (fuel : Nat) : Prop where
  item : ∀ type (slot : AmfSlot σ) values data, data.length + 2 ≤ fuel →
    (amfReadItem asserts fuel type slot values data).Settled asserts data.length
  strictArray : ∀ count (values : σ) data, data.length + 2 ≤ fuel →
    (amfReadStrictArray asserts fuel count values data).Settled asserts data.length
  object : ∀ items (values : σ) data, data.length + 1 ≤ fuel →
    (amfReadObject asserts fuel items values data).Settled asserts data.length

variable {asserts}

theorem AmfSettles.item_succ {fuel : Nat} (ih : AmfSettles σ asserts fuel) (type : UInt8)
    (slot : AmfSlot σ) (values : σ) (data : List UInt8) (hfuel : data.length + 2 ≤ fuel + 1) :
    (amfReadItem asserts (fuel + 1) type slot values data).Settled asserts data.length := by
  have hdrop : (data.drop 4).length ≤ data.length := by simp
  rw [amfReadItem]
  apply AmfRead.Settled.ite (amfReadBoolean_settled asserts slot values data)
  apply AmfRead.Settled.ite (amfReadDouble_settled asserts slot values data)
  apply AmfRead.Settled.ite (amfReadStringItem_settled asserts 2 slot values data)
  apply AmfRead.Settled.ite (amfReadStringItem_settled asserts 4 slot values data)
  apply AmfRead.Settled.ite (amfReadDate_settled asserts values data)
  apply AmfRead.Settled.ite (ih.object [] values data (by omega))
  apply AmfRead.Settled.ite
  · exact Nat.le_refl data.length
  apply AmfRead.Settled.ite
  · split
    · trivial
    · exact (ih.object [] values _ (by omega)).mono hdrop
  apply AmfRead.Settled.ite
  · split
    · trivial
    · exact (ih.strictArray _ values _ (by simp only [List.length_drop]; omega)).mono hdrop
  · cases asserts with
    | false => trivial
    | true => rfl

theorem AmfSettles.strictArray_succ {fuel : Nat} (ih : AmfSettles σ asserts fuel) (count : Nat)
    (values : σ) (data : List UInt8) (hfuel : data.length + 2 ≤ fuel + 1) :
    (amfReadStrictArray asserts (fuel + 1) count values data).Settled asserts data.length := by
  cases count with
  | zero => exact Nat.le_refl _
  | succ count =>
      cases data with
      | nil => exact Nat.le_refl _
      | cons type data =>
          rw [List.length_cons] at hfuel
          rw [amfReadStrictArray, List.length_cons]
          refine (ih.item type .ignored values data (by omega)).followedBy ?_
          intro values' rest hrest
          exact (ih.strictArray count values' rest (by omega)).mono (by omega)

theorem AmfSettles.object_succ {fuel : Nat} (ih : AmfSettles σ asserts fuel)
    (items : List (AmfObjectItem σ)) (values : σ) (data : List UInt8)
    (hfuel : data.length + 1 ≤ fuel + 1) :
    (amfReadObject asserts (fuel + 1) items values data).Settled asserts data.length := by
  match data with
  | [] => exact amfReadObjectEnd_settled asserts values []
  | [b] => exact amfReadObjectEnd_settled asserts values [b]
  | b₀ :: b₁ :: rest =>
      rw [List.length_cons, List.length_cons] at hfuel ⊢
      rw [amfReadObject]
      split
      · exact (amfReadObjectEnd_settled asserts values rest).mono (by omega)
      · cases hdata : rest.drop (b₀.toNat * 256 + b₁.toNat) with
        | nil => trivial
        | cons type data =>
            have hshort := congrArg List.length hdata
            rw [List.length_drop, List.length_cons] at hshort
            refine (ih.item type _ values data (by omega)).followedBy ?_
            intro values' rest' hrest
            exact (ih.object items values' rest' (by omega)).mono (by omega)

/-- The three readers at once, by induction on the fuel: each call is made on a shorter
    buffer, or by `amf_read_item` on its own. -/
theorem amfSettles (fuel : Nat) : AmfSettles σ asserts fuel := by
  induction fuel with
  | zero =>
      constructor
      · intro _ _ _ _ h
        omega
      · intro _ _ _ h
        omega
      · intro _ _ _ h
        omega
  | succ fuel ih =>
      exact
        { item := ih.item_succ
          strictArray := ih.strictArray_succ
          object := ih.object_succ }

variable (asserts)

/-- `amf_read_items` has enough fuel. -/
theorem amfReadItems_settled (props : List (AmfObjectItem σ)) (values : σ)
    (data : List UInt8) : (amfReadItems asserts props values data).Settled asserts data.length := by
  cases data with
  | nil => exact Nat.le_refl _
  | cons type data =>
      simp only [amfReadItems, List.length_cons]
      split
      · exact ((amfSettles _).object props values data (by omega)).mono (by omega)
      split
      · split
        · trivial
        · exact ((amfSettles _).object props values (data.drop 4)
            (by simp only [List.length_drop]; omega)).mono
              (by simp only [List.length_drop]; omega)
      split
      · exact Nat.le_succ _
      · trivial

end Fuel

end SeastarLive.Flv
