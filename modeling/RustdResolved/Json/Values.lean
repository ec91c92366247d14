import Mathlib.Data.List.Induction
import RustdResolved.Lib.Maps
import RustdResolved.Wire.Octets

/-! # JSON values and their texts

The values of `json.rs`. An object keeps its members in the order in which they were inserted, with
a map from the keys to their places; the fields of an object are private, so every object is what
inserting its members gives (`JsonObject.WellFormed`). `toJson` writes a value on one line and
`toJsonPretty` with a line for every member. -/

namespace RustdResolved.Json.Values

open List Lib.Maps Wire.Octets

variable {key : Text}

/-! ### Objects -/

structure JsonObject (α : Type) where
  entries : List (Text × α)
  indices : FiniteMap Text Nat

namespace JsonObject

variable {α : Type} {object : JsonObject α} {value : α} {entries : List (Text × α)}

def new : JsonObject α := ⟨[], ∅⟩

section
variable (object : JsonObject α)

def get (key : Text) : Option α :=
  (object.indices.lookup key).bind fun index => (object.entries[index]?).map Prod.snd

/-- The value that the key had before, and the object. -/
def insert (key : Text) (value : α) : Option α × JsonObject α :=
  match object.indices.lookup key with
  | some index =>
    ((object.entries[index]?).map Prod.snd,
      { object with entries := object.entries.modify index fun entry => (entry.1, value) })
  | none =>
    (none, ⟨object.entries ++ [(key, value)], object.indices.insert key object.entries.length⟩)

def keys : List Text := object.entries.map Prod.fst

end

def fromIter (entries : List (Text × α)) : JsonObject α :=
  entries.foldl (fun object entry => (object.insert entry.1 entry.2).2) new

/-- The object is what inserting its members gives. -/
def WellFormed (object : JsonObject α) : Prop := fromIter object.entries = object

theorem fromIter_concat (entries : List (Text × α)) (entry : Text × α) :
    fromIter (entries ++ [entry]) = ((fromIter entries).insert entry.1 entry.2).2 := by
  simp [fromIter]

def places (keys : List Text) : FiniteMap Text Nat :=
  keys.zipIdx.foldl (fun places key => places.insert key.1 key.2) ∅

theorem places_concat (keys : List Text) (key : Text) :
    places (keys ++ [key]) = (places keys).insert key keys.length := by
  simp [places, zipIdx_append]

theorem lookup_places_eq_none {keys : List Text} (h : key ∉ keys) :
    (places keys).lookup key = none := by
  induction keys using reverseRecOn with
  | nil => rfl
  | append_singleton keys other ih =>
    obtain ⟨hkeys, hother⟩ : key ∉ keys ∧ key ≠ other := by simpa using h
    rw [places_concat, AList.lookup_insert_ne hother, ih hkeys]

theorem lookup_places {keys : List Text} (h : key ∈ keys) :
    ∃ index, (places keys).lookup key = some index ∧ keys[index]? = some key := by
  induction keys using reverseRecOn with
  | nil => cases h
  | append_singleton keys other ih =>
    rw [places_concat]
    by_cases hother : key = other
    · subst hother
      exact ⟨keys.length, AList.lookup_insert _, by simp⟩
    · obtain ⟨index, hlookup, hindex⟩ := ih (by simpa [hother] using h)
      refine ⟨index, by rw [AList.lookup_insert_ne hother, hlookup], ?_⟩
      rw [getElem?_append_left (List.getElem?_eq_some_iff.mp hindex).1, hindex]

/-- Keys are distinct and the map has their places. -/
structure Indexed (object : JsonObject α) : Prop where
  nodup : object.keys.Nodup
  indices : object.indices = places object.keys

theorem Indexed.lookup_eq_none_iff (h : object.Indexed) :
    object.indices.lookup key = none ↔ key ∉ object.keys := by
  rw [h.indices]
  refine ⟨fun hnone hmem => ?_, lookup_places_eq_none⟩
  obtain ⟨index, hsome, -⟩ := lookup_places hmem
  rw [hnone] at hsome
  cases hsome

theorem Indexed.insert_new (h : object.Indexed) (hkey : key ∉ object.keys) (value : α) :
    object.insert key value =
      (none, ⟨object.entries ++ [(key, value)],
        object.indices.insert key object.entries.length⟩) := by
  simp only [insert, h.lookup_eq_none_iff.mpr hkey]

/-- A key that is there keeps its place. -/
theorem Indexed.insert_known (h : object.Indexed) (hkey : key ∈ object.keys) :
    ∃ index, (object.entries[index]?).map Prod.fst = some key ∧
      object.insert key value =
        ((object.entries[index]?).map Prod.snd,
          { object with
            entries := object.entries.modify index fun entry => (entry.1, value) }) := by
  obtain ⟨index, hlookup, hindex⟩ := lookup_places hkey
  rw [← h.indices] at hlookup
  refine ⟨index, by rw [← hindex, keys, getElem?_map], ?_⟩
  simp only [insert, hlookup]

theorem keys_modify (entries : List (Text × α)) (index : Nat) (value : α) :
    (entries.modify index fun entry => (entry.1, value)).map Prod.fst = entries.map Prod.fst := by
  refine ext_getElem? fun i => ?_
  rw [getElem?_map, getElem?_modify, getElem?_map]
  cases entries[i]? with
  | none => rfl
  | some entry =>
    by_cases hi : index = i
    · simp [hi]
    · simp [hi]

theorem Indexed.insert (h : object.Indexed) (key : Text) (value : α) :
    (object.insert key value).2.Indexed := by
  by_cases hkey : key ∈ object.keys
  · obtain ⟨index, -, hinsert⟩ := h.insert_known hkey
    have hkeys := keys_modify object.entries index value
    rw [hinsert]
    refine ⟨?_, h.indices.trans (congrArg places hkeys.symm)⟩
    rw [keys, hkeys]
    exact h.nodup
  · rw [h.insert_new hkey]
    have hkeys : (object.entries ++ [(key, value)]).map Prod.fst = object.keys ++ [key] := by
      simp [keys]
    constructor
    · rw [keys, hkeys, nodup_append]
      refine ⟨h.nodup, by simp, ?_⟩
      rintro other hother _ hmem rfl
      exact hkey (mem_singleton.mp hmem ▸ hother)
    · rw [keys, hkeys, places_concat, ← h.indices]
      simp [keys]

theorem Indexed.fromIter (entries : List (Text × α)) : (fromIter entries).Indexed := by
  induction entries using reverseRecOn with
  | nil => exact ⟨nodup_nil, rfl⟩
  | append_singleton entries entry ih =>
    rw [fromIter_concat]
    exact ih.insert entry.1 entry.2

theorem fromIter_of_nodup (h : (entries.map Prod.fst).Nodup) :
    JsonObject.fromIter entries = ⟨entries, places (entries.map Prod.fst)⟩ := by
  induction entries using reverseRecOn with
  | nil => rfl
  | append_singleton entries entry ih =>
    rw [map_append, nodup_append] at h
    have hkey : entry.1 ∉ entries.map Prod.fst := fun hmem => h.2.2 _ hmem _ (by simp) rfl
    have hnew := ih h.1
    have hindexed := Indexed.fromIter entries
    rw [hnew] at hindexed
    rw [fromIter_concat, hnew, hindexed.insert_new hkey, map_append, map_singleton,
      places_concat, length_map]

theorem insert_fromIter (h : ((entries ++ [(key, value)]).map Prod.fst).Nodup) :
    (JsonObject.fromIter entries).insert key value =
      (none, JsonObject.fromIter (entries ++ [(key, value)])) := by
  rw [map_append, nodup_append] at h
  have hkey : key ∉ (JsonObject.fromIter entries).keys := by
    rw [fromIter_of_nodup h.1]
    exact fun hmem => h.2.2 _ hmem _ (by simp) rfl
  rw [fromIter_concat, (Indexed.fromIter entries).insert_new hkey]

theorem wellFormed_iff : object.WellFormed ↔ object.Indexed := by
  constructor
  · intro h
    rw [← (h : JsonObject.fromIter object.entries = object)]
    exact Indexed.fromIter object.entries
  · intro h
    obtain ⟨entries, indices⟩ := object
    have hindices : indices = places (entries.map Prod.fst) := h.indices
    rw [hindices]
    exact fromIter_of_nodup h.nodup

theorem WellFormed.insert (h : object.WellFormed) (key : Text) (value : α) :
    (object.insert key value).2.WellFormed :=
  wellFormed_iff.mpr ((wellFormed_iff.mp h).insert key value)

theorem WellFormed.get (h : object.WellFormed)
    (hmem : (key, value) ∈ object.entries) : object.get key = some value := by
  have hindexed := wellFormed_iff.mp h
  have hkey : key ∈ object.keys := mem_map.mpr ⟨(key, value), hmem, rfl⟩
  obtain ⟨index, hlookup, hindex⟩ := lookup_places hkey
  obtain ⟨i, hi, hentry⟩ := mem_iff_getElem.mp hmem
  have hplace : index = i := by
    refine ((getElem?_inj (by simpa [keys] using hi) hindexed.nodup).mp ?_).symm
    rw [hindex, keys, getElem?_map, getElem?_eq_getElem hi, hentry]
    rfl
  rw [JsonObject.get, hindexed.indices, hlookup, hplace]
  simp [getElem?_eq_getElem hi, hentry]

end JsonObject

/-! ### Values -/

abbrev I128 := { n : Int // -2 ^ 127 ≤ n ∧ n < 2 ^ 127 }

inductive Value
  | null
  | bool (value : Bool)
  | number (value : I128)
  | string (value : Text)
  | array (values : List Value)
  | object (members : JsonObject Value)

/-! ### The texts of values -/

def hexDigitChar (digit : Nat) : Char :=
  if digit < 10 then Char.ofNat (48 + digit) else Char.ofNat (87 + digit)

/-- `{:04x}` of a number below 65536. -/
def hexQuad (n : Nat) : Text :=
  [hexDigitChar (n / 4096 % 16), hexDigitChar (n / 256 % 16), hexDigitChar (n / 16 % 16),
    hexDigitChar (n % 16)]

def writeChar (c : Char) : Text :=
  if c = '"' then ['\\', '"']
  else if c = '\\' then ['\\', '\\']
  else if c.toNat = 0x08 then ['\\', 'b']
  else if c.toNat = 0x0c then ['\\', 'f']
  else if c = '\n' then ['\\', 'n']
  else if c = '\r' then ['\\', 'r']
  else if c = '\t' then ['\\', 't']
  else if c.toNat < 0x20 then '\\' :: 'u' :: hexQuad c.toNat
  else [c]

def writeString (value : Text) : Text := '"' :: value.flatMap writeChar ++ ['"']

/-- `i128::to_string`. -/
def writeNumber (value : I128) : Text :=
  if value.val < 0 then '-' :: decimal value.val.natAbs else decimal value.val.natAbs

mutual

def writeJson : Value → Text
  | .null => "null".toList
  | .bool value => if value then "true".toList else "false".toList
  | .number value => writeNumber value
  | .string value => writeString value
  | .array values => '[' :: writeItems values ++ [']']
  | .object object => '{' :: writeMembers object ++ ['}']

/-- The members of an object, with commas between them. -/
def writeMembers : JsonObject Value → Text
  | ⟨entries, _⟩ => writeEntries entries

/-- The elements of an array, with commas between them. -/
def writeItems : List Value → Text
  | [] => []
  | [value] => writeJson value
  | value :: values => writeJson value ++ ',' :: writeItems values

def writeEntries : List (Text × Value) → Text
  | [] => []
  | [(key, value)] => writeString key ++ ':' :: writeJson value
  | (key, value) :: entries => writeString key ++ ':' :: writeJson value ++
      ',' :: writeEntries entries

end

def tabs (depth : Nat) : Text := List.replicate depth '\t'

mutual

def writeJsonPretty (depth : Nat) : Value → Text
  | .array (value :: values) =>
    "[\n".toList ++ writeItemsPretty (depth + 1) (value :: values) ++ tabs depth ++ [']']
  | .object object => writeMembersPretty depth object
  | value => writeJson value

def writeMembersPretty (depth : Nat) : JsonObject Value → Text
  | ⟨[], _⟩ => ['{', '}']
  | ⟨entry :: entries, _⟩ =>
    "\x7b\n".toList ++ writeEntriesPretty (depth + 1) (entry :: entries) ++ tabs depth ++ ['}']

/-- The elements of an array, a line for each. -/
def writeItemsPretty (depth : Nat) : List Value → Text
  | [] => []
  | [value] => tabs depth ++ writeJsonPretty depth value ++ ['\n']
  | value :: values =>
    tabs depth ++ writeJsonPretty depth value ++ ",\n".toList ++ writeItemsPretty depth values

/-- The members of an object, a line for each. -/
def writeEntriesPretty (depth : Nat) : List (Text × Value) → Text
  | [] => []
  | [(key, value)] =>
    tabs depth ++ writeString key ++ " : ".toList ++ writeJsonPretty depth value ++ ['\n']
  | (key, value) :: entries =>
    tabs depth ++ writeString key ++ " : ".toList ++ writeJsonPretty depth value ++ ",\n".toList ++
      writeEntriesPretty depth entries

end

namespace Value

def toJson (value : Value) : Text := writeJson value

def toJsonPretty (value : Value) : Text := writeJsonPretty 0 value

end Value

/-! ### Equality

Objects are equal if they have the same members, in any order. -/

/-- What an object has for a key is smaller than the object. -/
theorem sizeOf_lt_of_get {object : JsonObject Value} {key : Text} {value : Value}
    (h : object.get key = some value) : sizeOf value < sizeOf object := by
  obtain ⟨index, -, hget⟩ := Option.bind_eq_some_iff.mp h
  obtain ⟨⟨name, found⟩, hentry, rfl⟩ := Option.map_eq_some_iff.mp hget
  have hlt := sizeOf_lt_of_mem (mem_of_getElem? hentry)
  cases object
  simp only [Prod.mk.sizeOf_spec, JsonObject.mk.sizeOf_spec] at hlt ⊢
  omega

mutual

def valueEq : Value → Value → Bool
  | .null, .null => true
  | .bool a, .bool b => a == b
  | .number a, .number b => a.val == b.val
  | .string a, .string b => a == b
  | .array a, .array b => itemsEq a b
  | .object a, .object b => objectEq a b
  | _, _ => false
termination_by a b => (sizeOf a + sizeOf b, 0)

def objectEq : JsonObject Value → JsonObject Value → Bool
  | ⟨entries, _⟩, other => entries.length == other.entries.length && entriesEq entries other
termination_by a b => (sizeOf a + sizeOf b, 1)

def itemsEq : List Value → List Value → Bool
  | [], [] => true
  | a :: as, b :: bs => valueEq a b && itemsEq as bs
  | _, _ => false
termination_by as bs => (sizeOf as + sizeOf bs, 0)

/-- What the other object has for the key of a member is equal to the member. -/
def entriesEq : List (Text × Value) → JsonObject Value → Bool
  | [], _ => true
  | (key, value) :: entries, other =>
    (match _h : other.get key with
      | some found => valueEq found value
      | none => false) && entriesEq entries other
termination_by entries other => (sizeOf entries + sizeOf other, 0)
decreasing_by
  · have := sizeOf_lt_of_get _h
    decreasing_tactic
  · decreasing_tactic

end

/-! ### Values that can be made -/

mutual

def WellFormed : Value → Prop
  | .array values => AllWellFormed values
  | .object object => ObjectWellFormed object
  | _ => True

def ObjectWellFormed : JsonObject Value → Prop
  | ⟨entries, indices⟩ =>
    JsonObject.WellFormed (⟨entries, indices⟩ : JsonObject Value) ∧ MembersWellFormed entries

def AllWellFormed : List Value → Prop
  | [] => True
  | value :: values => WellFormed value ∧ AllWellFormed values

def MembersWellFormed : List (Text × Value) → Prop
  | [] => True
  | (_, value) :: entries => WellFormed value ∧ MembersWellFormed entries

end

theorem membersWellFormed_iff {entries : List (Text × Value)} :
    MembersWellFormed entries ↔ ∀ entry ∈ entries, WellFormed entry.2 := by
  induction entries with
  | nil => simp [MembersWellFormed]
  | cons entry entries ih => simp [MembersWellFormed, ih]

theorem objectWellFormed_iff {object : JsonObject Value} :
    ObjectWellFormed object ↔ object.WellFormed ∧ MembersWellFormed object.entries := by
  cases object
  simp only [ObjectWellFormed]

theorem objectWellFormed_new : ObjectWellFormed JsonObject.new := ⟨rfl, trivial⟩

theorem ObjectWellFormed.insert {object : JsonObject Value} (h : ObjectWellFormed object)
    (key : Text) {value : Value} (hvalue : WellFormed value) :
    ObjectWellFormed (object.insert key value).2 := by
  obtain ⟨hobject, hentries⟩ := objectWellFormed_iff.mp h
  refine objectWellFormed_iff.mpr ⟨hobject.insert key value, membersWellFormed_iff.mpr ?_⟩
  rw [membersWellFormed_iff] at hentries
  have hindexed := JsonObject.wellFormed_iff.mp hobject
  by_cases hkey : key ∈ object.keys
  · obtain ⟨index, -, hinsert⟩ := hindexed.insert_known hkey
    rw [hinsert]
    intro entry hentry
    obtain ⟨i, hi⟩ := mem_iff_getElem?.mp hentry
    rw [getElem?_modify] at hi
    obtain ⟨old, hold, rfl⟩ := Option.map_eq_some_iff.mp hi
    by_cases heq : index = i
    · simpa [heq] using hvalue
    · simpa [heq] using hentries old (mem_of_getElem? hold)
  · rw [hindexed.insert_new hkey]
    intro entry hentry
    rcases mem_append.mp hentry with hentry | hentry
    · exact hentries entry hentry
    · rw [mem_singleton.mp hentry]
      exact hvalue

/-- **Objects of values that can be made can be made**, whatever the members. -/
theorem objectWellFormed_fromIter {entries : List (Text × Value)}
    (h : ∀ entry ∈ entries, WellFormed entry.2) :
    ObjectWellFormed (JsonObject.fromIter entries) := by
  induction entries using reverseRecOn with
  | nil => exact objectWellFormed_new
  | append_singleton entries entry ih =>
    rw [JsonObject.fromIter_concat]
    refine (ih fun other hother => h other (by simp [hother])).insert entry.1 (h entry (by simp))

mutual

/-- A value that can be made is equal to itself. -/
theorem valueEq_self : ∀ value : Value, WellFormed value → valueEq value value = true
  | .null, _ => by simp only [valueEq]
  | .bool _, _ | .number _, _ | .string _, _ => by simp only [valueEq, beq_self_eq_true]
  | .array values, h => by
    simpa only [valueEq] using itemsEq_self values h
  | .object object, h => by
    simpa only [valueEq] using objectEq_self object h

theorem objectEq_self : ∀ object : JsonObject Value, ObjectWellFormed object →
    objectEq object object = true
  | ⟨entries, indices⟩, h => by
    have hentries := entriesEq_self entries ⟨entries, indices⟩ h.2 fun entry hentry =>
      h.1.get hentry
    simp [objectEq, hentries]

theorem itemsEq_self : ∀ values : List Value, AllWellFormed values → itemsEq values values = true
  | [], _ => by simp only [itemsEq]
  | value :: values, h => by
    simp [itemsEq, valueEq_self value h.1, itemsEq_self values h.2]

theorem entriesEq_self : ∀ (entries : List (Text × Value)) (object : JsonObject Value),
    MembersWellFormed entries → (∀ entry ∈ entries, object.get entry.1 = some entry.2) →
    entriesEq entries object = true
  | [], _, _, _ => by simp only [entriesEq]
  | (key, value) :: entries, object, h, hget => by
    have hkey : object.get key = some value := hget (key, value) (by simp)
    have hrest := entriesEq_self entries object h.2 fun entry hentry =>
      hget entry (by simp [hentry])
    have hvalue := valueEq_self value h.1
    simp only [entriesEq, hrest, Bool.and_true]
    split
    · rename_i found hfound
      rw [Option.some.inj (hfound.symm.trans hkey)]
      exact hvalue
    · rename_i hnone
      rw [hkey] at hnone
      cases hnone

end

end RustdResolved.Json.Values
