import Qaas.Serde.Variants

/-! How values are written by derived code, and what is read back of them. -/

namespace Serde

variable {A B E F : Type}

/-- Whether a document is `null`. -/
def Json.isNull : Json → Bool
  | .null => true
  | _ => false

/-- The document of a value that may be absent. -/
def Json.optional (json : Option Json) : Json :=
  json.getD .null

/-- The document of an enum's variant with content. -/
def Json.tagged (name : String) (content : Json) : Json :=
  .object [(name, content)]

/-- Every document but `null` is none. -/
theorem Json.isNull_eq_false {json : Json} : json.isNull = false ↔ json ≠ .null := by
  cases json <;> simp [isNull]

/-- What a computation that succeeds is turned into. -/
theorem map_eq_ok {first : Except E A} {next : A → B} {result : B} :
    first.map next = .ok result ↔ ∃ value, first = .ok value ∧ next value = result := by
  cases first with
  | error error => simp [Except.map]
  | ok value => simp [Except.map]

/-- A tuple of two is read from an array of two. -/
theorem Decoder.decode_pair {first : Decoder A} {second : Decoder B} {oneJson twoJson : Json} {one : A}
    {two : B} (oneRead : first.decode oneJson = .ok one) (twoRead : second.decode twoJson = .ok two) :
    (first.pair second).decode (.array [oneJson, twoJson]) = .ok (one, two) := by
  refine bind_eq_ok.mpr ⟨_, item_eq_ok.mpr ⟨oneJson, rfl, oneRead⟩, ?_⟩
  exact bind_eq_ok.mpr ⟨_, item_eq_ok.mpr ⟨twoJson, rfl, twoRead⟩, rfl⟩

/-- A variant with content is read from its name and its content. -/
theorem Decoder.decode_tagged {variants : List (Variant A)} {variant : Variant A} {name : String}
    (found : variantOf variants name = .ok variant) (content : Json) :
    (Decoder.tagged variants).decode (Json.tagged name content) = variant.content.decode content := by
  simp [tagged, Json.tagged, found, bind, Except.bind]

/-- A value that may be absent is read back, unless it is written as `null`. -/
theorem Decoder.decode_optional {decoder : Decoder A} {encode : A → Json}
    (reads : ∀ value, decoder.decode (encode value) = .ok value) (value : Option A) :
    decoder.option.decode (Json.optional (value.map encode)) =
      .ok (value.filter fun value => !(encode value).isNull) := by
  -- An absent value and one that is written as `null` are the same document.
  cases value with
  | none => rfl
  | some value =>
    by_cases empty : encode value = .null
    · have null : (encode value).isNull = true := by rw [empty]; rfl
      rw [Option.filter_some, null]
      simp [Json.optional, empty, option]
    · rw [Option.filter_some, Json.isNull_eq_false.mpr empty]
      exact decode_option (reads value) empty

/-- A value that may be absent, and is never written as `null`, is read back. -/
theorem Decoder.decode_optional_present {decoder : Decoder A} {encode : A → Json}
    (reads : ∀ value, decoder.decode (encode value) = .ok value) (present : ∀ value, encode value ≠ .null)
    (value : Option A) : decoder.option.decode (Json.optional (value.map encode)) = .ok value := by
  rw [decode_optional reads]
  cases value with
  | none => rfl
  | some value =>
    rw [Option.filter_some, Json.isNull_eq_false.mpr (present value)]
    rfl

/-- A struct is read back from its fields. -/
theorem Shape.visit_written [DecidableEq F] (shape : Shape F) {values : (field : F) → shape.Value field}
    {json : F → Json} (reads : ∀ field, (shape.decoder field).decode (json field) = .ok (values field)) :
    shape.visit (.object (shape.written json)) = .ok fun field => some (values field) :=
  shape.visit_object reads (.of_eq (shape.filter_written json))

end Serde
