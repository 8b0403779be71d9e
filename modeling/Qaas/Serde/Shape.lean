import Mathlib.Data.Finmap
import Mathlib.Data.Finset.Sort
import Mathlib.Data.String.Basic

/-! JSON documents, and how a struct is read from one by derived code. -/

namespace Serde

/-- A JSON document. -/
inductive Json where
  | null
  | bool (value : Bool)
  | integer (value : Int)
  /-- A number with a fraction or an exponent, as it is written. -/
  | decimal (text : String)
  | string (text : String)
  | array (items : List Json)
  | object (fields : List (String × Json))

/-- Why a document is not written, or not read as a value. -/
inductive JsonError where
  | custom (message : String)
  | invalidType
  | invalidValue
  | invalidLength (length : Nat)
  | missingField (name : String)
  | duplicateField (name : String)
  deriving DecidableEq

/-- How a type is read from a document, and from a field that is not there. -/
structure Decoder (A : Type) where
  decode : Json → Except JsonError A
  missing : Option A := none

variable {A B F : Type}

/-- An unsigned integer below a bound. -/
def Decoder.unsigned (size : Nat) : Decoder Nat where
  decode
    | .integer value =>
      if 0 ≤ value ∧ value < size then .ok value.toNat else .error .invalidValue
    | _ => .error .invalidType

/-- A text. -/
def Decoder.text : Decoder String where
  decode
    | .string text => .ok text
    | _ => .error .invalidType

/-- A type made of another one, read as that one is. -/
def Decoder.newtype (decoder : Decoder A) (wrap : A → B) : Decoder B where
  decode value := (decoder.decode value).map wrap

/-- A value or `null`, where a missing field counts as `null`. -/
def Decoder.option (decoder : Decoder A) : Decoder (Option A) where
  decode
    | .null => .ok none
    | value => (decoder.decode value).map some
  missing := some none

/-- Insert entries one after the other, a later one over an earlier one of the same key. -/
def readStrings (entries : Finmap fun _ : String => String) :
    List (String × Json) → Except JsonError (Finmap fun _ : String => String)
  | [] => .ok entries
  | (key, value) :: rest =>
    match Decoder.text.decode value with
    | .error error => .error error
    | .ok text => readStrings (entries.insert key text) rest

/-- A map from texts to texts. -/
def Decoder.strings : Decoder (Finmap fun _ : String => String) where
  decode
    | .object fields => readStrings ∅ fields
    | _ => .error .invalidType

/-- The document of a map from texts to texts, in the order of the keys. -/
def strings (entries : Finmap fun _ : String => String) : Json :=
  .object ((entries.keys.sort (· ≤ ·)).map fun key => (key, .string ((entries.lookup key).getD "")))

/-- What is derived for a struct: its fields in the order of their declaration, the name of each,
and how it is read. -/
structure Shape (F : Type) where
  Value : F → Type
  fields : List F
  name : F → String
  decoder : (field : F) → Decoder (Value field)
  nodup : fields.Nodup
  complete : ∀ field, field ∈ fields
  name_injective : Function.Injective name

/-- The fields that have been read so far. -/
abbrev Shape.Slots (shape : Shape F) : Type :=
  (field : F) → Option (shape.Value field)

/-- The names of the fields. -/
def Shape.names (shape : Shape F) : List String :=
  shape.fields.map shape.name

/-- The fields of a struct as they are written, given the document of each. -/
def Shape.written (shape : Shape F) (json : F → Json) : List (String × Json) :=
  shape.fields.map fun field => (shape.name field, json field)

/-- The field of a name. -/
def Shape.fieldOf (shape : Shape F) (name : String) : Option F :=
  shape.fields.find? fun field => shape.name field = name

/-- The fields that are given, each with its document. -/
def Shape.known (shape : Shape F) (given : List (String × Json)) : List (F × Json) :=
  given.filterMap fun entry => (shape.fieldOf entry.1).map fun field => (field, entry.2)

/-- A field that has been read, or stands for one that is not there. -/
def Shape.take (shape : Shape F) (slots : shape.Slots) (field : F) :
    Except JsonError (shape.Value field) :=
  match slots field with
  | some value => .ok value
  | none =>
    match (shape.decoder field).missing with
    | some value => .ok value
    | none => .error (.missingField (shape.name field))

@[simp] theorem Shape.take_some (shape : Shape F)
    (values : (field : F) → shape.Value field) (field : F) :
    shape.take (fun field => some (values field)) field = .ok (values field) := rfl

/-- A number below the bound is read back. -/
theorem Decoder.decode_unsigned {size value : Nat} (below : value < size) :
    (Decoder.unsigned size).decode (.integer value) = .ok value := by
  have bounds : 0 ≤ (value : Int) ∧ (value : Int) < size := by omega
  simp [unsigned, bounds]

/-- What the entries of a list of keys make of a map. -/
theorem readStrings_keys (entries others : Finmap fun _ : String => String) (keys : List String) :
    ∃ read, readStrings others (keys.map fun key => (key, .string ((entries.lookup key).getD ""))) = .ok read ∧
      ∀ key, read.lookup key = if key ∈ keys then some ((entries.lookup key).getD "") else others.lookup key := by
  -- The induction inserts one key after the other.
  induction keys generalizing others with
  | nil => exact ⟨others, rfl, fun key => by simp⟩
  | cons first keys ih =>
    obtain ⟨read, inserted, lookup⟩ := ih (others.insert first ((entries.lookup first).getD ""))
    refine ⟨read, inserted, fun key => ?_⟩
    rw [lookup key]
    by_cases same : key = first
    · subst same
      simp
    · simp [same, Finmap.lookup_insert_of_ne _ same]

/-- A map is read back from its document. -/
theorem Decoder.decode_strings (entries : Finmap fun _ : String => String) :
    Decoder.strings.decode (Serde.strings entries) = .ok entries := by
  -- Both maps answer every key alike.
  obtain ⟨read, inserted, lookup⟩ := readStrings_keys entries ∅ (entries.keys.sort (· ≤ ·))
  have same : read = entries := by
    refine Finmap.ext_lookup fun key => ?_
    rw [lookup key]
    simp only [Finset.mem_sort, Finmap.mem_keys]
    by_cases present : key ∈ entries
    · obtain ⟨value, found⟩ := Finmap.mem_iff.mp present
      simp [present, found]
    · simp [present, Finmap.lookup_eq_none.mpr present]
  subst same
  exact inserted

/-- A newtype is read as what it is made of. -/
theorem Decoder.decode_newtype {decoder : Decoder A} (wrap : A → B) {json : Json} {value : A}
    (read : decoder.decode json = .ok value) : (decoder.newtype wrap).decode json =
      .ok (wrap value) := by
  simp only [newtype, read]
  rfl

/-- A value that is there is read as one, unless it is written as `null`. -/
theorem Decoder.decode_option {decoder : Decoder A} {json : Json} {value : A}
    (read : decoder.decode json = .ok value) (present : json ≠ .null) :
    decoder.option.decode json = .ok (some value) := by
  cases json with
  | null => exact absurd rfl present
  | bool _ | integer _ | decimal _ | string _ | array _ | object _ =>
    simp only [option, read]
    rfl

/-- A field is found under its name. -/
theorem Shape.fieldOf_name (shape : Shape F) (field : F) :
    shape.fieldOf (shape.name field) = some field := by
  cases found : shape.fieldOf (shape.name field) with
  -- A name that belongs to the struct is found, and only one field has it.
  | none => simpa using List.find?_eq_none.mp found field (shape.complete field)
  | some other =>
    have same : shape.name other = shape.name field := by simpa using List.find?_some found
    rw [shape.name_injective same]

/-- Every name that is written is one of the names. -/
theorem Shape.filter_written (shape : Shape F) (json : F → Json) :
    (shape.written json).filter (fun entry => entry.1 ∈ shape.names) = shape.written json := by
  refine List.filter_eq_self.mpr fun entry inside => ?_
  obtain ⟨field, listed, rfl⟩ := List.mem_map.mp inside
  exact decide_eq_true (List.mem_map.mpr ⟨field, listed, rfl⟩)

/-- The fields in what is written. -/
theorem Shape.known_written (shape : Shape F) (json : F → Json) :
    shape.known (shape.written json) = shape.fields.map fun field => (field, json field) := by
  rw [known, written, List.filterMap_map, ← List.filterMap_eq_map]
  congr 1
  funext field
  simp [shape.fieldOf_name]

/-- The fields in a document that has more of other names. -/
theorem Shape.known_filter (shape : Shape F) (given : List (String × Json)) :
    shape.known (given.filter fun entry => entry.1 ∈ shape.names) = shape.known given := by
  rw [known, List.filterMap_filter, known]
  congr 1
  funext entry
  -- A name outside the names is no field's.
  split
  · rfl
  · rename_i other
    have unknown : shape.fieldOf entry.1 = none := by
      simp only [names, List.mem_map, not_exists, not_and, decide_eq_true_eq] at other
      simpa [fieldOf] using other
    rw [unknown]
    rfl

variable [DecidableEq F]

/-- Read the fields of an object. -/
def Shape.visitMap (shape : Shape F) (slots : shape.Slots) : List (String × Json) →
    Except JsonError shape.Slots
  | [] => .ok slots
  | (name, value) :: rest =>
    match shape.fieldOf name with
    -- A name that is not the struct's own: the document is skipped.
    | none => shape.visitMap slots rest
    | some field =>
      if (slots field).isSome then .error (.duplicateField (shape.name field))
      else
        match (shape.decoder field).decode value with
        | .error error => .error error
        | .ok read => shape.visitMap (Function.update slots field (some read)) rest

/-- Read the items of an array, one for each field. -/
def Shape.visitSeq (shape : Shape F) (slots : shape.Slots) : List F → List Json →
    Except JsonError shape.Slots
  | [], [] => .ok slots
  | [], _ :: _ => .error (.custom "trailing characters")
  | field :: _, [] => .error (.invalidLength (shape.fields.idxOf field))
  | field :: fields, value :: rest =>
    match (shape.decoder field).decode value with
    | .error error => .error error
    | .ok read => shape.visitSeq (Function.update slots field (some read)) fields rest

/-- Read the fields of a struct. -/
def Shape.visit (shape : Shape F) : Json → Except JsonError shape.Slots
  | .object fields => shape.visitMap (fun _ => none) fields
  | .array items => shape.visitSeq (fun _ => none) shape.fields items
  | _ => .error .invalidType

/-- The fields of a struct are read in any order, and among any others, when each of them is there
once. -/
theorem Shape.visitMap_of_perm (shape : Shape F) {values : (field : F) → shape.Value field}
    {json : F → Json}
    (reads : ∀ field, (shape.decoder field).decode (json field) = .ok (values field))
    {given : List (String × Json)} {left : List F} (distinct : left.Nodup)
    (same : (shape.known given).Perm (left.map fun field => (field, json field))) :
    shape.visitMap (fun field => if field ∈ left then none else some (values field)) given =
      .ok fun field => some (values field) := by
  -- The fields that are left are those in the rest of the document.
  induction given generalizing left with
  | nil =>
    obtain rfl : left = [] := by simpa [known] using same.symm
    simp [visitMap]
  | cons entry given ih =>
    obtain ⟨name, value⟩ := entry
    cases found : shape.fieldOf name with
    | none =>
      simp only [visitMap, found]
      -- An entry of another name is skipped.
      exact ih distinct (by simpa [known, found] using same)
    | some field =>
      have first : shape.known ((name, value) :: given) = (field, value) :: shape.known given := by
        simp [known, found]
      rw [first] at same
      -- The entry is one of those that are left, so it is not read a second time.
      obtain ⟨other, inside, equal⟩ := List.mem_map.mp (same.subset List.mem_cons_self)
      obtain ⟨rfl, rfl⟩ := Prod.mk.inj equal
      simp only [visitMap, found, if_pos inside, Option.isSome_none, Bool.false_eq_true, if_false, reads]
      -- Without it, the others are left.
      have rest : (shape.known given).Perm ((left.erase other).map fun field =>
        (field, json field)) := by
        refine (same.trans ((List.perm_cons_erase inside).map _)).cons_inv
      rw [← ih (distinct.erase other) rest]
      congr 1
      funext field
      by_cases own : field = other
      · subst own
        simp [distinct.mem_erase_iff]
      · simp [own, distinct.mem_erase_iff]

/-- A struct is read back from its fields, in any order and among fields of other names. -/
theorem Shape.visit_object (shape : Shape F) {values : (field : F) → shape.Value field} {json : F → Json}
    (reads : ∀ field, (shape.decoder field).decode (json field) = .ok (values field))
    {given : List (String × Json)}
    (same : (given.filter fun entry => entry.1 ∈ shape.names).Perm (shape.written json)) :
    shape.visit (.object given) = .ok fun field => some (values field) := by
  have known : (shape.known given).Perm (shape.fields.map fun field => (field, json field)) := by
    rw [← shape.known_filter, ← shape.known_written]
    exact same.filterMap _
  -- At the start all fields are left.
  have empty : (fun field => if field ∈ shape.fields then none else some (values field)) =
      (fun _ => none : shape.Slots) := by
    funext field
    rw [if_pos (shape.complete field)]
  have read := shape.visitMap_of_perm reads shape.nodup known
  rw [empty] at read
  exact read

end Serde
