import Revent.Api.GrpcTx
import Revent.Domain.HashMap

/-!
# Payloads of events

What `json_to_prost_struct` loses of a JSON object: the numbers become `f64`s, and nothing else
changes. `Struct.toJson` reads the object back, with `f64`s for numbers, and what it reads back
is the object with its numbers converted where they are (`JsonValue.mapNumbers`).

An object is the list of its entries in the order of the keys. Converting keeps the keys, so
collecting the converted entries in a B-tree map gives these entries again
(`collect_jsonToProstFields`).
-/

namespace Revent

/-! ## JSON with other numbers -/

namespace JsonValue

variable {Number Double : Type}

mutual

/-- A JSON value with each number replaced, and nothing else. -/
def mapNumbers (f : Number → Double) : JsonValue Number → JsonValue Double
  | null => null
  | bool b => bool b
  | number n => number (f n)
  | string s => string s
  | array values => array (mapValues f values)
  | object map => object (mapFields f map)

/-- The values of an array, each with its numbers replaced. -/
def mapValues (f : Number → Double) : List (JsonValue Number) → List (JsonValue Double)
  | [] => []
  | v :: values => mapNumbers f v :: mapValues f values

/-- The entries of an object, each with the numbers of its value replaced. -/
def mapFields (f : Number → Double) :
    List (String × JsonValue Number) → List (String × JsonValue Double)
  | [] => []
  | (k, v) :: map => (k, mapNumbers f v) :: mapFields f map

end

mutual

/-- Two JSON values differ at most in numbers with the same image. -/
inductive AgreeUpTo (f : Number → Double) : JsonValue Number → JsonValue Number → Prop where
  | null : AgreeUpTo f null null
  | bool (b : Bool) : AgreeUpTo f (bool b) (bool b)
  | number {m n : Number} (same : f m = f n) : AgreeUpTo f (number m) (number n)
  | string (s : String) : AgreeUpTo f (string s) (string s)
  | array {vs ws : List (JsonValue Number)} (values : ValuesAgree f vs ws) :
    AgreeUpTo f (array vs) (array ws)
  | object {map map' : List (String × JsonValue Number)} (fields : FieldsAgree f map map') :
    AgreeUpTo f (object map) (object map')

/-- The values of two arrays agree, one by one. -/
inductive ValuesAgree (f : Number → Double) :
    List (JsonValue Number) → List (JsonValue Number) → Prop where
  | nil : ValuesAgree f [] []
  | cons {v w : JsonValue Number} {vs ws : List (JsonValue Number)} (value : AgreeUpTo f v w)
      (values : ValuesAgree f vs ws) : ValuesAgree f (v :: vs) (w :: ws)

/-- The entries of two objects have the same keys, and their values agree. -/
inductive FieldsAgree (f : Number → Double) :
    List (String × JsonValue Number) → List (String × JsonValue Number) → Prop where
  | nil : FieldsAgree f [] []
  | cons {k : String} {v w : JsonValue Number} {map map' : List (String × JsonValue Number)}
      (value : AgreeUpTo f v w) (fields : FieldsAgree f map map') :
    FieldsAgree f ((k, v) :: map) ((k, w) :: map')

end

variable {f : Number → Double}

mutual

/-- Values that are the same once their numbers are replaced agree. -/
theorem agree_of_mapNumbers : ∀ {v w : JsonValue Number},
    v.mapNumbers f = w.mapNumbers f → AgreeUpTo f v w
  | .null, w, same => by
    cases w with
    | null => exact .null
    | _ => cases same
  | .bool b, w, same => by
    cases w with
    | bool c =>
      cases same
      exact .bool b
    | _ => cases same
  | .number m, w, same => by
    cases w with
    | number n =>
      simp only [mapNumbers, number.injEq] at same
      exact .number same
    | _ => cases same
  | .string s, w, same => by
    cases w with
    | string t =>
      cases same
      exact .string s
    | _ => cases same
  | .array vs, w, same => by
    cases w with
    | array ws =>
      simp only [mapNumbers, array.injEq] at same
      exact .array (agree_of_mapValues same)
    | _ => cases same
  | .object map, w, same => by
    cases w with
    | object map' =>
      simp only [mapNumbers, object.injEq] at same
      exact .object (agree_of_mapFields same)
    | _ => cases same

theorem agree_of_mapValues : ∀ {vs ws : List (JsonValue Number)},
    mapValues f vs = mapValues f ws → ValuesAgree f vs ws
  | [], ws, same => by
    cases ws with
    | nil => exact .nil
    | cons w ws => cases same
  | v :: vs, ws, same => by
    cases ws with
    | nil => cases same
    | cons w ws =>
      obtain ⟨value, values⟩ := List.cons.inj same
      exact .cons (agree_of_mapNumbers value) (agree_of_mapValues values)

theorem agree_of_mapFields : ∀ {map map' : List (String × JsonValue Number)},
    mapFields f map = mapFields f map' → FieldsAgree f map map'
  | [], map', same => by
    cases map' with
    | nil => exact .nil
    | cons e map' => cases same
  | (k, v) :: map, map', same => by
    cases map' with
    | nil => cases same
    | cons e map' =>
      obtain ⟨k', w⟩ := e
      obtain ⟨entry, fields⟩ := List.cons.inj same
      obtain ⟨rfl, value⟩ := Prod.mk.inj entry
      exact .cons (agree_of_mapNumbers value) (agree_of_mapFields fields)

end

end JsonValue

/-! ## Reading prost values back -/

namespace Proto

variable {Double : Type}

mutual

/-- The JSON a prost value stands for. -/
def Value.toJson : Value Double → JsonValue Double
  | .mk none => .null
  | .mk (some kind) => kind.toJson

/-- The JSON a kind stands for. -/
def Kind.toJson : Kind Double → JsonValue Double
  | .nullValue _ => .null
  | .numberValue n => .number n
  | .stringValue s => .string s
  | .boolValue b => .bool b
  | .structValue value => value.toJson
  | .listValue values => .array (valuesToJson values)

/-- The object a struct stands for. -/
def Struct.toJson : Struct Double → JsonValue Double
  | .mk fields => .object (fieldsToJson fields)

/-- The JSON of each value of a list. -/
def valuesToJson : List (Value Double) → List (JsonValue Double)
  | [] => []
  | v :: values => v.toJson :: valuesToJson values

/-- The JSON of each field of a struct. -/
def fieldsToJson : List (String × Value Double) → List (String × JsonValue Double)
  | [] => []
  | (k, v) :: fields => (k, v.toJson) :: fieldsToJson fields

end

end Proto

/-! ## The round trip -/

variable {Number Double : Type} {json : SerdeJson Number Double}

/-- `n.as_f64().unwrap_or(0.0)`. -/
def SerdeJson.image (json : SerdeJson Number Double) (n : Number) : Double :=
  (json.asF64 n).getD json.zero

mutual

/-- A value that is converted and read back has its numbers replaced. -/
theorem toJson_jsonToProstValue : ∀ v : JsonValue Number,
    (jsonToProstValue json v).toJson = v.mapNumbers json.image
  | .null | .bool _ | .number _ | .string _ => rfl
  | .array vs => by
    rw [jsonToProstValue, Proto.Value.toJson, Proto.Kind.toJson, JsonValue.mapNumbers,
      valuesToJson_jsonToProstValues vs]
  | .object map => by
    rw [jsonToProstValue, Proto.Value.toJson, Proto.Kind.toJson, Proto.Struct.toJson,
      JsonValue.mapNumbers, fieldsToJson_jsonToProstFields map]

theorem valuesToJson_jsonToProstValues : ∀ vs : List (JsonValue Number),
    Proto.valuesToJson (jsonToProstValues json vs) = JsonValue.mapValues json.image vs
  | [] => rfl
  | v :: vs => by
    rw [jsonToProstValues, Proto.valuesToJson, JsonValue.mapValues, toJson_jsonToProstValue v,
      valuesToJson_jsonToProstValues vs]

theorem fieldsToJson_jsonToProstFields : ∀ map : List (String × JsonValue Number),
    Proto.fieldsToJson (jsonToProstFields json map) = JsonValue.mapFields json.image map
  | [] => rfl
  | (k, v) :: map => by
    rw [jsonToProstFields, Proto.fieldsToJson, JsonValue.mapFields, toJson_jsonToProstValue v,
      fieldsToJson_jsonToProstFields map]

end

/-- The keys of an object are kept, in their order. -/
theorem keys_jsonToProstFields (map : List (String × JsonValue Number)) :
    (jsonToProstFields json map).map (·.1) = map.map (·.1) := by
  induction map with
  | nil => rfl
  | cons entry map ih =>
    obtain ⟨k, v⟩ := entry
    rw [jsonToProstFields, List.map_cons, List.map_cons, ih]

/-- The entries have unique keys, in the order of a B-tree map. -/
def Ascending {α : Type} (entries : List (String × α)) : Prop :=
  (entries.map (·.1)).Pairwise fun k k' => compare k k' = .lt

/-- The entries of a B-tree map are the ones it was collected from. -/
theorem toList_ofList_of_ascending {α : Type} {entries : List (String × α)}
    (ascending : Ascending entries) : (Std.ExtTreeMap.ofList entries compare).toList = entries := by
  have before : entries.Pairwise fun e e' => compare e.1 e'.1 = .lt :=
    List.pairwise_map.mp ascending
  have distinct : entries.Pairwise fun e e' => ¬ compare e.1 e'.1 = .eq :=
    before.imp fun lt eq => by
      rw [lt] at eq
      cases eq
  have collected {k : String} {v : α} (mem : (k, v) ∈ entries) :
      (Std.ExtTreeMap.ofList entries compare)[k]? = some v :=
    Std.ExtTreeMap.getElem?_ofList_of_mem Std.ReflOrd.compare_self distinct mem
  refine HashMap.toList_eq_of_ascending before fun k v => ⟨collected, fun found => ?_⟩
  have key : k ∈ Std.ExtTreeMap.ofList entries compare :=
    Std.ExtTreeMap.mem_iff_isSome_getElem?.mpr (by rw [found]; rfl)
  rw [Std.ExtTreeMap.mem_ofList, List.contains_iff_mem] at key
  obtain ⟨⟨k', v'⟩, mem, rfl⟩ := List.mem_map.mp key
  cases found.symm.trans (collected mem)
  exact mem

/-- The converted entries of an object, collected in a B-tree map. -/
theorem collect_jsonToProstFields {map : List (String × JsonValue Number)}
    (ascending : Ascending map) :
    (Std.ExtTreeMap.ofList (jsonToProstFields json map) compare).toList =
      jsonToProstFields json map := by
  apply toList_ofList_of_ascending
  rw [Ascending, keys_jsonToProstFields]
  exact ascending

/-- **What the conversion of objects loses**: converted and read back, an object is itself with
its numbers replaced, so two objects with the same image differ at most in such numbers. -/
structure LosesOnlyNumbers (json : SerdeJson Number Double) : Prop where
  readBack : ∀ map : List (String × JsonValue Number),
    (jsonToProstStruct json (.object map)).toJson = (JsonValue.object map).mapNumbers json.image
  agree : ∀ map map' : List (String × JsonValue Number),
    jsonToProstStruct json (.object map) = jsonToProstStruct json (.object map') →
      (JsonValue.object map).AgreeUpTo json.image (.object map')

/-- An object that is converted and read back. -/
theorem toJson_jsonToProstStruct (map : List (String × JsonValue Number)) :
    (jsonToProstStruct json (.object map)).toJson =
      (JsonValue.object map).mapNumbers json.image := by
  rw [jsonToProstStruct, Proto.Struct.toJson, JsonValue.mapNumbers,
    fieldsToJson_jsonToProstFields map]

/-- **Nothing but number precision is lost.** -/
theorem losesOnlyNumbers (json : SerdeJson Number Double) : LosesOnlyNumbers json := by
  refine ⟨toJson_jsonToProstStruct, fun map map' same => ?_⟩
  apply JsonValue.agree_of_mapNumbers
  calc (JsonValue.object map).mapNumbers json.image
      = (jsonToProstStruct json (.object map)).toJson := (toJson_jsonToProstStruct map).symm
    _ = (jsonToProstStruct json (.object map')).toJson := by rw [same]
    _ = (JsonValue.object map').mapNumbers json.image := toJson_jsonToProstStruct map'

/-- The payload of an event on the stream is the object that was stored. -/
theorem SourceEvent.toJson_payload {event : SourceEvent} {map : List (String × JsonValue Number)}
    (stored : json.fromSlice event.payload = some (.object map)) :
    (event.toProto json).payload.map Proto.Struct.toJson =
      some ((JsonValue.object map).mapNumbers json.image) := by
  unfold SourceEvent.toProto
  rw [stored]
  exact congrArg some (toJson_jsonToProstStruct map)

end Revent
