import Qaas.Serde.Shape

/-! How an enum is read by derived code, and which document a struct's field is read from. -/

namespace Serde

variable {A B C E F : Type}

/-- The next item of a tuple. -/
def Decoder.item (decoder : Decoder A) (position : Nat) : List Json →
    Except JsonError (A × List Json)
  | [] => .error (.invalidLength position)
  | value :: rest => (decoder.decode value).map fun read => (read, rest)

/-- The end of a tuple. -/
def noMoreItems : List Json → Except JsonError Unit
  | [] => .ok ()
  | _ :: _ => .error (.custom "trailing characters")

/-- A tuple of two. -/
def Decoder.pair (first : Decoder A) (second : Decoder B) : Decoder (A × B) where
  decode
    | .array items => do
      let (one, items) ← first.item 0 items
      let (two, items) ← second.item 1 items
      noMoreItems items
      return (one, two)
    | _ => .error .invalidType

/-- A tuple of three. -/
def Decoder.triple (first : Decoder A) (second : Decoder B) (third : Decoder C) :
    Decoder (A × B × C) where
  decode
    | .array items => do
      let (one, items) ← first.item 0 items
      let (two, items) ← second.item 1 items
      let (three, items) ← third.item 2 items
      noMoreItems items
      return (one, two, three)
    | _ => .error .invalidType

/-- One variant of an enum: its name, how its content is read, and what the name alone stands
for. -/
structure Variant (A : Type) where
  name : String
  content : Decoder A
  alone : Option A := none

/-- A variant with content. -/
def Variant.holding (name : String) (content : Decoder B) (wrap : B → A) : Variant A where
  name := name
  content := content.newtype wrap

/-- A variant without content. -/
def Variant.unit (name : String) (value : A) : Variant A where
  name := name
  content :=
    { decode
        | .null => .ok value
        | _ => .error .invalidType }
  alone := some value

/-- The variant of a name. -/
def variantOf (variants : List (Variant A)) (name : String) : Except JsonError (Variant A) :=
  match variants.find? fun variant => variant.name = name with
  | some variant => .ok variant
  | none => .error (.custom "unknown variant")

/-- An enum is an object of one entry, which is its variant's name and content, or a name alone. -/
def Decoder.tagged (variants : List (Variant A)) : Decoder A where
  decode
    | .object [(name, content)] => do
      let variant ← variantOf variants name
      variant.content.decode content
    | .string name => do
      let variant ← variantOf variants name
      variant.alone.elim (.error .invalidType) .ok
    | _ => .error (.custom "expected value")

/-- What follows a computation that succeeds. -/
theorem bind_eq_ok {first : Except E A} {next : A → Except E B} {result : B} :
    first >>= next = .ok result ↔ ∃ value, first = .ok value ∧ next value = .ok result := by
  cases first with
  | error error => simp [bind, Except.bind]
  | ok value => simp [bind, Except.bind]

/-- An item is read from the front of a list. -/
theorem Decoder.item_eq_ok {decoder : Decoder A} {position : Nat} {items rest : List Json} {read : A} :
    decoder.item position items = .ok (read, rest) ↔
      ∃ value, items = value :: rest ∧ decoder.decode value = .ok read := by
  -- An empty list has no item, and in another one the first decides.
  cases items with
  | nil => simp [item]
  | cons value others =>
    cases decoded : decoder.decode value with
    | error error => simp [item, decoded, Except.map]
    | ok found => simp [item, decoded, Except.map, and_comm]

/-- A tuple ends where its items do. -/
theorem noMoreItems_eq_ok {items : List Json} {done : Unit} : noMoreItems items = .ok done ↔ items = [] := by
  cases items <;> simp [noMoreItems]

/-- A tuple of three is read from an array of three. -/
theorem Decoder.triple_eq_ok {first : Decoder A} {second : Decoder B} {third : Decoder C} {json : Json}
    {one : A} {two : B} {three : C} :
    (first.triple second third).decode json = .ok (one, two, three) ↔
      ∃ oneJson twoJson threeJson, json = .array [oneJson, twoJson, threeJson] ∧
        first.decode oneJson = .ok one ∧ second.decode twoJson = .ok two ∧
        third.decode threeJson = .ok three := by
  constructor
  · intro read
    cases json with
    | array items =>
      obtain ⟨⟨_, afterOne⟩, firstRead, read⟩ := bind_eq_ok.mp read
      obtain ⟨⟨_, afterTwo⟩, secondRead, read⟩ := bind_eq_ok.mp read
      obtain ⟨⟨_, afterThree⟩, thirdRead, read⟩ := bind_eq_ok.mp read
      obtain ⟨_, ended, read⟩ := bind_eq_ok.mp read
      cases read
      -- Each item is in front of the next, and nothing is behind the third.
      obtain ⟨oneJson, rfl, oneRead⟩ := item_eq_ok.mp firstRead
      obtain ⟨twoJson, rfl, twoRead⟩ := item_eq_ok.mp secondRead
      obtain ⟨threeJson, rfl, threeRead⟩ := item_eq_ok.mp thirdRead
      obtain rfl := noMoreItems_eq_ok.mp ended
      exact ⟨oneJson, twoJson, threeJson, rfl, oneRead, twoRead, threeRead⟩
    | null | bool _ | integer _ | decimal _ | string _ | object _ => cases read
  · rintro ⟨oneJson, twoJson, threeJson, rfl, oneRead, twoRead, threeRead⟩
    refine bind_eq_ok.mpr ⟨_, item_eq_ok.mpr ⟨oneJson, rfl, oneRead⟩, ?_⟩
    refine bind_eq_ok.mpr ⟨_, item_eq_ok.mpr ⟨twoJson, rfl, twoRead⟩, ?_⟩
    exact bind_eq_ok.mpr ⟨_, item_eq_ok.mpr ⟨threeJson, rfl, threeRead⟩, rfl⟩

/-- The document that a field of a struct is read from: an entry of its name, or the item at its
place. -/
def Shape.document [DecidableEq F] (shape : Shape F) (field : F) : Json → Option Json
  | .object given => (given.find? fun entry => entry.1 = shape.name field).map Prod.snd
  | .array items => items[shape.fields.idxOf field]?
  | _ => none

variable [DecidableEq F] {shape : Shape F}

/-- A field that has been read is not read again. -/
theorem Shape.visitMap_kept {given : List (String × Json)} {slots read : shape.Slots} {field : F}
    (present : (slots field).isSome) (visited : shape.visitMap slots given = .ok read) :
    read field = slots field := by
  -- Along the entries: the field has its value already, so no entry may be its own.
  induction given generalizing slots with
  | nil =>
    obtain rfl := Except.ok.inj visited
    rfl
  | cons entry given ih =>
    obtain ⟨name, value⟩ := entry
    simp only [visitMap] at visited
    split at visited
    · exact ih present visited
    · rename_i other found
      split at visited
      · cases visited
      rename_i absent
      split at visited
      · cases visited
      -- The entry is another field's, which was not there yet.
      have apart : field ≠ other := by
        rintro rfl
        exact absent present
      have kept := ih (by rwa [Function.update_of_ne apart]) visited
      rwa [Function.update_of_ne apart] at kept

/-- A field of an object is read from the first entry of its name. -/
theorem Shape.visitMap_read {given : List (String × Json)} {slots read : shape.Slots} (field : F)
    (absent : slots field = none) (visited : shape.visitMap slots given = .ok read) :
    (match given.find? fun entry => entry.1 = shape.name field with
      | some entry => ((shape.decoder field).decode entry.2).map some
      | none => .ok none) = .ok (read field) := by
  -- Along the entries, up to the first of the field's name.
  induction given generalizing slots with
  | nil =>
    obtain rfl := Except.ok.inj visited
    simp [absent]
  | cons entry given ih =>
    obtain ⟨name, value⟩ := entry
    simp only [visitMap] at visited
    split at visited
    · -- An entry of no field's name.
      rename_i unknown
      have other : name ≠ shape.name field := by
        rintro rfl
        rw [shape.fieldOf_name] at unknown
        cases unknown
      rw [List.find?_cons_of_neg (by simpa using other)]
      exact ih absent visited
    · rename_i other found
      have named : shape.name other = name := by simpa using List.find?_some found
      split at visited
      · cases visited
      split at visited
      · cases visited
      rename_i taken decoded
      by_cases same : other = field
      · -- The field's own entry: what it is read as stays.
        subst same
        have kept : read other = Function.update slots other (some taken) other :=
          visitMap_kept (by simp) visited
        rw [List.find?_cons_of_pos (by simpa using named.symm)]
        simp [decoded, Except.map, kept]
      · have apart : name ≠ shape.name field := fun equal => same (shape.name_injective (named.trans equal))
        rw [List.find?_cons_of_neg (by simpa using apart)]
        exact ih (by rwa [Function.update_of_ne (Ne.symm same)]) visited

/-- A field that is not among those still to come stays as it is. -/
theorem Shape.visitSeq_kept {fields : List F} {items : List Json} {slots read : shape.Slots} {field : F}
    (past : field ∉ fields) (visited : shape.visitSeq slots fields items = .ok read) :
    read field = slots field := by
  -- Each item goes to the field it stands for, which is another one.
  induction fields generalizing slots items with
  | nil =>
    cases items with
    | nil =>
      obtain rfl := Except.ok.inj visited
      rfl
    | cons _ _ => cases visited
  | cons first fields ih =>
    cases items with
    | nil => cases visited
    | cons value rest =>
      simp only [visitSeq] at visited
      split at visited
      · cases visited
      simp only [List.mem_cons, not_or] at past
      obtain ⟨apart, later⟩ := past
      rw [ih later visited, Function.update_of_ne apart]

/-- A field of an array is read from the item at its place. -/
theorem Shape.visitSeq_read {fields : List F} {items : List Json} {slots read : shape.Slots} {field : F}
    (distinct : fields.Nodup) (inside : field ∈ fields)
    (visited : shape.visitSeq slots fields items = .ok read) :
    ∃ value, items[fields.idxOf field]? = some value ∧
      ((shape.decoder field).decode value).map some = .ok (read field) := by
  -- Along the fields, up to the one in question.
  induction fields generalizing slots items with
  | nil => cases inside
  | cons first fields ih =>
    cases items with
    | nil => cases visited
    | cons value rest =>
      simp only [visitSeq] at visited
      split at visited
      · cases visited
      rename_i taken decoded
      obtain ⟨fresh, distinct⟩ := List.nodup_cons.mp distinct
      by_cases same : first = field
      · -- The item of the field itself, which comes only once.
        subst same
        refine ⟨value, by simp, ?_⟩
        rw [visitSeq_kept fresh visited, Function.update_self, decoded]
        rfl
      · rw [List.idxOf_cons_ne _ same, List.getElem?_cons_succ]
        exact ih distinct ((List.mem_cons.mp inside).resolve_left (Ne.symm same)) visited

/-- A struct that is read has each of its fields from that field's document. -/
theorem Shape.visit_document {json : Json} {read : shape.Slots} (visited : shape.visit json = .ok read)
    (field : F) : (match shape.document field json with
      | some value => ((shape.decoder field).decode value).map some
      | none => .ok none) = .ok (read field) := by
  -- Only objects and arrays are read as structs.
  cases json with
  | object given =>
    have entry := visitMap_read field rfl visited
    rw [document]
    cases found : given.find? fun entry => entry.1 = shape.name field with
    | none => simpa [found] using entry
    | some pair => simpa [found] using entry
  | array items =>
    obtain ⟨value, placed, decoded⟩ := visitSeq_read shape.nodup (shape.complete field) visited
    rw [document, placed]
    exact decoded
  | null | bool _ | integer _ | decimal _ | string _ => cases visited

/-- A field's value is read from its document, or stands for one that is not there. -/
theorem Shape.take_document {json : Json} {read : shape.Slots} {field : F} {value : shape.Value field}
    (visited : shape.visit json = .ok read) (taken : shape.take read field = .ok value) :
    match shape.document field json with
      | some given => (shape.decoder field).decode given = .ok value
      | none => (shape.decoder field).missing = some value := by
  have slot := visit_document visited field
  rw [take] at taken
  cases placed : shape.document field json with
  | some given =>
    rw [placed] at slot
    -- What was read is in the slot, and is what is taken out of it.
    cases decoded : (shape.decoder field).decode given with
    | error error => simp [decoded, Except.map] at slot
    | ok found =>
      have filled : read field = some found := by simpa [decoded, Except.map] using slot.symm
      rw [filled] at taken
      exact decoded.trans (congrArg Except.ok (Except.ok.inj taken))
  | none =>
    rw [placed] at slot
    have empty : read field = none := (Except.ok.inj slot).symm
    rw [empty] at taken
    cases default : (shape.decoder field).missing with
    | none => simp [default] at taken
    | some found => simpa [default] using taken

/-- A text is read from the document that is that text, and from no other. -/
theorem Decoder.newtype_text_eq_ok {wrap : String → A} {json : Json} {value : A} :
    (Decoder.text.newtype wrap).decode json = .ok value ↔ ∃ text, json = .string text ∧ wrap text = value := by
  cases json <;> simp [newtype, text, Except.map]

/-- A value that may be absent is there exactly if its document is one of such a value. -/
theorem Decoder.option_eq_some {decoder : Decoder A} {json : Json} {value : A} :
    decoder.option.decode json = .ok (some value) ↔ json ≠ .null ∧ decoder.decode json = .ok value := by
  -- Every document but `null` is handed on.
  cases json with
  | null => simp [option]
  | bool _ | integer _ | decimal _ | string _ | array _ | object _ =>
    simp only [option, ne_eq, reduceCtorEq, not_false_eq_true, true_and]
    cases decoder.decode _ <;> simp [Except.map]

/-- A field that may be absent, of a type made of a text, has a value exactly if its document is that
value's text. -/
theorem Decoder.optional_text {wrap : String → A} (injective : Function.Injective wrap)
    {document : Option Json} {read : Option A}
    (taken : match document with
      | some given => (Decoder.text.newtype wrap).option.decode given = .ok read
      | none => (Decoder.text.newtype wrap).option.missing = some read) (text : String) :
    read = some (wrap text) ↔ document = some (.string text) := by
  -- A missing document and `null` both stand for no value.
  cases document with
  | none =>
    obtain rfl := Option.some.inj taken
    simp
  | some given =>
    constructor
    · rintro rfl
      obtain ⟨_, decoded⟩ := option_eq_some.mp taken
      obtain ⟨same, rfl, equal⟩ := newtype_text_eq_ok.mp decoded
      rw [injective equal]
    · intro placed
      obtain rfl := Option.some.inj placed
      exact (Except.ok.inj taken).symm

end Serde
