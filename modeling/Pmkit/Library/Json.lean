import Mathlib.Algebra.Group.Nat.Defs
import Mathlib.Algebra.Ring.Int.Defs
import Mathlib.Data.List.Basic

/-!
# JSON values

Values as a JSON library holds them: a number is an integer or the bits of a
floating-point number, and an object keeps its fields in order.
-/

inductive JsonValue where
  | null
  | bool (value : Bool)
  | number (value : Int)
  | real (bits : UInt64)
  | string (value : String)
  | array (items : List JsonValue)
  | object (fields : List (String × JsonValue))

namespace JsonValue

/-! ## Equality -/

mutual

def same : JsonValue → JsonValue → Bool
  | null, null => true
  | bool left, bool right => left = right
  | number left, number right => left = right
  | real left, real right => left = right
  | string left, string right => left = right
  | array left, array right => sameItems left right
  | object left, object right => sameFields left right
  | _, _ => false

def sameItems : List JsonValue → List JsonValue → Bool
  | [], [] => true
  | left :: leftRest, right :: rightRest =>
      same left right && sameItems leftRest rightRest
  | _, _ => false

def sameFields :
    List (String × JsonValue) → List (String × JsonValue) → Bool
  | [], [] => true
  | (leftName, left) :: leftRest, (rightName, right) :: rightRest =>
      leftName = rightName && same left right && sameFields leftRest rightRest
  | _, _ => false

end

mutual

theorem same_self : ∀ value : JsonValue, same value value = true
  | null => rfl
  | bool _ => by simp [same]
  | number _ => by simp [same]
  | real _ => by simp [same]
  | string _ => by simp [same]
  | array items => by simpa [same] using sameItems_self items
  | object fields => by simpa [same] using sameFields_self fields

theorem sameItems_self : ∀ items : List JsonValue, sameItems items items = true
  | [] => rfl
  | item :: rest => by
      simp [sameItems, same_self item, sameItems_self rest]

theorem sameFields_self :
    ∀ fields : List (String × JsonValue), sameFields fields fields = true
  | [] => rfl
  | (_, value) :: rest => by
      simp [sameFields, same_self value, sameFields_self rest]

end

mutual

theorem eq_of_same : ∀ left right : JsonValue, same left right = true →
    left = right
  | null, right, equal => by
      cases right <;> simp_all [same]
  | bool _, right, equal => by
      cases right <;> simp_all [same]
  | number _, right, equal => by
      cases right <;> simp_all [same]
  | real _, right, equal => by
      cases right <;> simp_all [same]
  | string _, right, equal => by
      cases right <;> simp_all [same]
  | array items, right, equal => by
      cases right with
      | array others =>
          rw [eq_of_sameItems items others (by simpa [same] using equal)]
      | _ => simp [same] at equal
  | object fields, right, equal => by
      cases right with
      | object others =>
          rw [eq_of_sameFields fields others (by simpa [same] using equal)]
      | _ => simp [same] at equal

theorem eq_of_sameItems : ∀ left right : List JsonValue,
    sameItems left right = true → left = right
  | [], [], _ => rfl
  | [], _ :: _, equal => by simp [sameItems] at equal
  | _ :: _, [], equal => by simp [sameItems] at equal
  | left :: leftRest, right :: rightRest, equal => by
      simp only [sameItems, Bool.and_eq_true] at equal
      rw [eq_of_same left right equal.1,
        eq_of_sameItems leftRest rightRest equal.2]

theorem eq_of_sameFields : ∀ left right : List (String × JsonValue),
    sameFields left right = true → left = right
  | [], [], _ => rfl
  | [], _ :: _, equal => by simp [sameFields] at equal
  | _ :: _, [], equal => by simp [sameFields] at equal
  | (leftName, left) :: leftRest, (rightName, right) :: rightRest, equal => by
      simp only [sameFields, Bool.and_eq_true, decide_eq_true_eq] at equal
      rw [equal.1.1, eq_of_same left right equal.1.2,
        eq_of_sameFields leftRest rightRest equal.2]

end

instance : DecidableEq JsonValue := fun left right =>
  decidable_of_iff (same left right = true)
    ⟨eq_of_same left right, fun equal => equal ▸ same_self left⟩

/-- The field of an object. -/
def get (value : JsonValue) (key : String) : Option JsonValue :=
  match value with
  | object fields => fields.lookup key
  | _ => none

/-- The value at a path of fields.  A token that names a field is not an index,
so an array has nothing there. -/
def pointer (value : JsonValue) : List String → Option JsonValue
  | [] => some value
  | key :: rest =>
      match value.get key with
      | none => none
      | some field => field.pointer rest

def asStr : JsonValue → Option String
  | string value => some value
  | _ => none

def isObject : JsonValue → Bool
  | object _ => true
  | _ => false

def asI64 : JsonValue → Option Int
  | number value =>
      if -(2 ^ 63) ≤ value ∧ value < 2 ^ 63 then some value else none
  | _ => none

def asUnsigned (bits : Nat) : JsonValue → Option Nat
  | number value =>
      if 0 ≤ value ∧ value < 2 ^ bits then some value.toNat else none
  | _ => none

def asArray : JsonValue → Option (List JsonValue)
  | array items => some items
  | _ => none

def insertField (key : String) (value : JsonValue) :
    List (String × JsonValue) → List (String × JsonValue)
  | [] => [(key, value)]
  | field :: rest =>
      match compare key field.1 with
      | .lt => (key, value) :: field :: rest
      | .eq => (key, value) :: rest
      | .gt => field :: insertField key value rest

/-- An object whose fields are kept sorted by name. -/
def ofFields (fields : List (String × JsonValue)) : JsonValue :=
  object (fields.foldl (fun sorted field =>
    insertField field.1 field.2 sorted) [])

/-- Add a field to an object that keeps its fields sorted. -/
def insert (value : JsonValue) (key : String) (field : JsonValue) :
    JsonValue :=
  match value with
  | object fields => object (insertField key field fields)
  | other => other

/-! ## Records

A derived reader of a record takes an object with known and different field
names, or an array with one item for each field.
-/

def recordFields (names : List String) :
    JsonValue → Option (List (String × JsonValue))
  | object fields =>
      if (fields.map Prod.fst).Nodup ∧ ∀ field ∈ fields, field.1 ∈ names then
        some fields
      else
        none
  | array items =>
      if items.length = names.length then
        some (names.zip items)
      else
        none
  | _ => none

/-- The fields of a record whose reader passes over fields of other names; an
array has the first of them in their order. -/
def openFields (names : List String) :
    JsonValue → Option (List (String × JsonValue))
  | object fields => some fields
  | array items =>
      if items.length ≤ names.length then
        some (names.zip items)
      else
        none
  | _ => none

/-- The name of the variant that a value holds, and its content: an object has
the name in one field, an array as its first item. -/
def taggedContent (tag : String) : JsonValue → Option (String × JsonValue)
  | object fields =>
      ((fields.lookup tag).bind asStr).map fun name =>
        (name, object (fields.filter fun field => field.1 ≠ tag))
  | array (first :: rest) =>
      first.asStr.map fun name => (name, array rest)
  | _ => none

def unitVariant {A : Type} (variants : List (String × A)) :
    JsonValue → Option A
  | string name => variants.lookup name
  | object [(name, null)] => variants.lookup name
  | object [(name, object [])] => variants.lookup name
  | _ => none

def required {A : Type} (fields : List (String × JsonValue)) (name : String)
    (read : JsonValue → Option A) : Option A :=
  (fields.lookup name).bind read

def optional {A : Type} (fields : List (String × JsonValue)) (name : String)
    (read : JsonValue → Option A) : Option (Option A) :=
  match fields.lookup name with
  | none => some none
  | some null => some none
  | some value => (read value).map some

/-- Replace the field of this name, or add it as the last one. -/
def setField (key : String) (value : JsonValue) :
    List (String × JsonValue) → List (String × JsonValue)
  | [] => [(key, value)]
  | field :: rest =>
      if field.1 = key then
        (key, value) :: rest
      else
        field :: setField key value rest

/-- `json_set` at a top-level path: only an object has fields to set. -/
def set (value : JsonValue) (key : String) (field : JsonValue) : JsonValue :=
  match value with
  | object fields => object (setField key field fields)
  | other => other

theorem asI64_number {value : Int} (fits : -(2 ^ 63) ≤ value ∧ value < 2 ^ 63) :
    asI64 (number value) = some value :=
  if_pos fits

theorem asUnsigned_number {bits value : Nat} (fits : value < 2 ^ bits) :
    asUnsigned bits (number value) = some value := by
  have inRange : (0 : Int) ≤ value ∧ (value : Int) < 2 ^ bits :=
    ⟨Int.natCast_nonneg value, by exact_mod_cast fits⟩
  rw [asUnsigned, if_pos inRange, Int.toNat_natCast]

theorem recordFields_object
    {names : List String} {fields found : List (String × JsonValue)}
    (read : (object fields).recordFields names = some found) :
    found = fields := by
  simp only [recordFields] at read
  split at read
  · exact (Option.some.inj read).symm
  · cases read

@[simp]
theorem pointer_singleton (value : JsonValue) (key : String) :
    value.pointer [key] = value.get key := by
  unfold pointer
  cases value.get key with
  | none => rfl
  | some field => rfl

theorem lookup_setField
    (key : String) (value : JsonValue) (fields : List (String × JsonValue)) :
    (setField key value fields).lookup key = some value := by
  induction fields with
  | nil =>
      simp [setField]
  | cons field rest ih =>
      by_cases same : field.1 = key
      · simp [setField, same]
      · have ne : (key == field.1) = false := by
          simpa using Ne.symm same
        rw [setField, if_neg same, List.lookup_cons, ne]
        exact ih

@[simp]
theorem get_set
    (fields : List (String × JsonValue)) (key : String) (field : JsonValue) :
    ((object fields).set key field).get key = some field :=
  lookup_setField key field fields

theorem lookup_setField_ne
    {key other : String} (ne : other ≠ key) (value : JsonValue)
    (fields : List (String × JsonValue)) :
    (setField key value fields).lookup other = fields.lookup other := by
  induction fields with
  | nil =>
      have unequal : (other == key) = false := by
        simpa using ne
      rw [setField, List.lookup_cons, unequal]
  | cons field rest ih =>
      by_cases same : field.1 = key
      · have unequal : (other == field.1) = false := by
          simpa [same] using ne
        have unequalKey : (other == key) = false := by
          simpa using ne
        rw [setField, if_pos same, List.lookup_cons, List.lookup_cons,
          unequal, unequalKey]
      · rw [setField, if_neg same, List.lookup_cons, List.lookup_cons, ih]

theorem lookup_cons_ite (key : String) (field : String × JsonValue)
    (rest : List (String × JsonValue)) :
    (field :: rest).lookup key =
      if key = field.1 then some field.2 else rest.lookup key := by
  rw [List.lookup_cons]
  by_cases same : key = field.1
  · simp [same]
  · rw [beq_false_of_ne same, if_neg same]

theorem required_cons {A : Type} (name key : String) (value : JsonValue)
    (rest : List (String × JsonValue)) (read : JsonValue → Option A) :
    required ((name, value) :: rest) key read =
      if key = name then read value else required rest key read := by
  rw [required, lookup_cons_ite]
  split
  · rw [Option.bind_some]
  · rw [required]

theorem lookup_insertField (key other : String) (value : JsonValue)
    (fields : List (String × JsonValue)) :
    (insertField key value fields).lookup other =
      if other = key then some value else fields.lookup other := by
  induction fields with
  | nil =>
      exact lookup_cons_ite other (key, value) []
  | cons field rest ih =>
      rw [insertField]
      cases compared : compare key field.1 with
      | lt =>
          exact lookup_cons_ite other (key, value) (field :: rest)
      | eq =>
          have same : key = field.1 :=
            Std.LawfulEqOrd.eq_of_compare compared
          rw [lookup_cons_ite, lookup_cons_ite, ← same]
          by_cases found : other = key
          · rw [if_pos found, if_pos found]
          · rw [if_neg found, if_neg found, if_neg found]
      | gt =>
          have ne : key ≠ field.1 := by
            intro same
            have ties : compare key field.1 = .eq := by
              rw [same]
              exact Std.ReflOrd.compare_self
            rw [ties] at compared
            cases compared
          rw [lookup_cons_ite, lookup_cons_ite, ih]
          by_cases found : other = key
          · rw [if_pos found, if_pos found, if_neg (found ▸ ne)]
          · rw [if_neg found, if_neg found]

/-- The fields of an object that is built are those that were given; of two
with one name the later one. -/
theorem get_ofFields (fields : List (String × JsonValue)) (key : String) :
    (ofFields fields).get key = fields.reverse.lookup key := by
  have loop : ∀ sorted : List (String × JsonValue),
      (fields.foldl (fun sorted field =>
        insertField field.1 field.2 sorted) sorted).lookup key =
          (fields.reverse ++ sorted).lookup key := by
    induction fields with
    | nil =>
        intro sorted
        rfl
    | cons field rest ih =>
        intro sorted
        rw [List.foldl_cons, ih, List.reverse_cons,
          List.append_assoc, List.singleton_append, List.lookup_append,
          List.lookup_append, lookup_insertField, lookup_cons_ite]
  rw [ofFields, JsonValue.get, loop, List.append_nil]

@[simp]
theorem get_insert (fields : List (String × JsonValue)) (key other : String)
    (value : JsonValue) :
    ((ofFields fields).insert key value).get other =
      if other = key then some value else (ofFields fields).get other :=
  lookup_insertField key other value _

theorem get_set_ne
    {key other : String} (ne : other ≠ key) (value field : JsonValue) :
    (value.set key field).get other = value.get other := by
  cases value with
  | object fields => exact lookup_setField_ne ne field fields
  | _ => rfl

end JsonValue
