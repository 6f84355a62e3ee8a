import DailyReport.Lib.JsonValue
import DailyReport.Lib.Sort
import Mathlib.Data.List.Lex

/-!
# Canonical texts of JSON values

`canonical` writes a value with the fields of its objects sorted by their keys.  Values are the same
(`Same`) when their objects are the same finite maps, whatever the order of their fields.

* `canonical_eq_iff` : **two values have one canonical text exactly when they are the same**;
* `parse_canonical` : **the canonical text is read back as the same value**.
-/

namespace Lib

namespace JsonValue

variable {F : Type} (format : FloatFormat F)

/-! ### Writing -/

/-- A field with its value written. -/
def fieldText (field : Text × Text) : Text := Json.printStr field.1 ++ ':' :: field.2

mutual

def canonical : JsonValue F → Text
  | .null => ['n', 'u', 'l', 'l']
  | .bool true => ['t', 'r', 'u', 'e']
  | .bool false => ['f', 'a', 'l', 's', 'e']
  | .int negative magnitude => intToken negative magnitude
  | .float f => format.token f
  | .str s => Json.printStr s
  | .arr items => '[' :: joinWith [','] (canonicalItems items) ++ [']']
  | .obj fields =>
    '{' :: joinWith [','] ((sortByKey Prod.fst (canonicalFields fields)).map fieldText) ++ ['}']

def canonicalItems : List (JsonValue F) → List Text
  | [] => []
  | v :: vs => canonical v :: canonicalItems vs

def canonicalFields : List (Text × JsonValue F) → List (Text × Text)
  | [] => []
  | (k, v) :: fields => (k, canonical v) :: canonicalFields fields

end

/-! ### Values that are the same -/

/-- The value of a key. -/
def lookupField (key : Text) (fields : List (Text × JsonValue F)) : Option (JsonValue F) :=
  (fields.find? fun field => decide (field.1 = key)).map Prod.snd

mutual

def Same : JsonValue F → JsonValue F → Prop
  | .null, .null => True
  | .bool a, .bool b => a = b
  | .int negative magnitude, .int negative' magnitude' =>
    negative = negative' ∧ magnitude = magnitude'
  | .float f, .float g => f = g
  | .str s, .str t => s = t
  | .arr vs, .arr ws => SameItems vs ws
  | .obj fields, .obj fields' => fields.length = fields'.length ∧ SameFields fields fields'
  | _, _ => False

def SameItems : List (JsonValue F) → List (JsonValue F) → Prop
  | [], [] => True
  | v :: vs, w :: ws => Same v w ∧ SameItems vs ws
  | _, _ => False

/-- The second object has the fields of the first one. -/
def SameFields : List (Text × JsonValue F) → List (Text × JsonValue F) → Prop
  | [], _ => True
  | (k, v) :: fields, fields' =>
    (∃ w, lookupField k fields' = some w ∧ Same v w) ∧ SameFields fields fields'

end

mutual

/-- No object of the value has a key twice. -/
def UniqueKeys : JsonValue F → Prop
  | .arr items => UniqueKeysItems items
  | .obj fields => (fields.map Prod.fst).Nodup ∧ UniqueKeysFields fields
  | _ => True

def UniqueKeysItems : List (JsonValue F) → Prop
  | [] => True
  | v :: vs => UniqueKeys v ∧ UniqueKeysItems vs

def UniqueKeysFields : List (Text × JsonValue F) → Prop
  | [] => True
  | (_, v) :: fields => UniqueKeys v ∧ UniqueKeysFields fields

end

theorem same_str {s t : Text} : Same (.str s : JsonValue F) (.str t) ↔ s = t := by rw [Same]

theorem same_obj {fields fields' : List (Text × JsonValue F)} :
    Same (.obj fields) (.obj fields') ↔
      fields.length = fields'.length ∧ SameFields fields fields' := by
  rw [Same]

theorem sameFields_nil (fields' : List (Text × JsonValue F)) : SameFields [] fields' ↔ True := by
  rw [SameFields]

theorem sameFields_cons {k : Text} {v : JsonValue F} {fields fields' : List (Text × JsonValue F)} :
    SameFields ((k, v) :: fields) fields' ↔
      (∃ w, lookupField k fields' = some w ∧ Same v w) ∧ SameFields fields fields' := by
  rw [SameFields]

/-! ### Sorting the fields -/

mutual

/-- The value with the fields of its objects sorted. -/
def normalize : JsonValue F → JsonValue F
  | .arr items => .arr (normalizeItems items)
  | .obj fields => .obj (sortByKey Prod.fst (normalizeFields fields))
  | .null => .null
  | .bool b => .bool b
  | .int negative magnitude => .int negative magnitude
  | .float f => .float f
  | .str s => .str s

def normalizeItems : List (JsonValue F) → List (JsonValue F)
  | [] => []
  | v :: vs => normalize v :: normalizeItems vs

def normalizeFields : List (Text × JsonValue F) → List (Text × JsonValue F)
  | [] => []
  | (k, v) :: fields => (k, normalize v) :: normalizeFields fields

end

theorem normalizeItems_eq (items : List (JsonValue F)) :
    normalizeItems items = items.map normalize := by
  induction items with
  | nil => rfl
  | cons v vs ih => rw [normalizeItems, ih, List.map_cons]

/-- A field with its value normalized. -/
def normalizeField (field : Text × JsonValue F) : Text × JsonValue F := (field.1, normalize field.2)

theorem normalizeFields_eq (fields : List (Text × JsonValue F)) :
    normalizeFields fields = fields.map normalizeField := by
  induction fields with
  | nil => rfl
  | cons field fields ih => rw [normalizeFields, ih, List.map_cons, normalizeField]

theorem canonicalItems_eq (items : List (JsonValue F)) :
    canonicalItems format items = items.map (canonical format) := by
  induction items with
  | nil => rfl
  | cons v vs ih => rw [canonicalItems, ih, List.map_cons]

theorem canonicalFields_eq (fields : List (Text × JsonValue F)) :
    canonicalFields format fields = fields.map fun field => (field.1, canonical format field.2) := by
  induction fields with
  | nil => rfl
  | cons field fields ih => rw [canonicalFields, ih, List.map_cons]

theorem uniqueKeysItems_iff {items : List (JsonValue F)} :
    UniqueKeysItems items ↔ ∀ v ∈ items, UniqueKeys v := by
  induction items with
  | nil => simp [UniqueKeysItems]
  | cons v vs ih => rw [UniqueKeysItems, ih, List.forall_mem_cons]

theorem uniqueKeysFields_iff {fields : List (Text × JsonValue F)} :
    UniqueKeysFields fields ↔ ∀ field ∈ fields, UniqueKeys field.2 := by
  induction fields with
  | nil => simp [UniqueKeysFields]
  | cons field fields ih => rw [UniqueKeysFields, ih, List.forall_mem_cons]

/-! ### The canonical text is that of the sorted value -/

theorem joinWith_comma (t u : Text) (pieces : List Text) :
    joinWith [','] (t :: u :: pieces) = t ++ ',' :: joinWith [','] (u :: pieces) := by
  rw [joinWith_cons [','] t (List.cons_ne_nil u pieces), List.append_assoc]
  rfl

/-- The items of an array are joined by commas. -/
theorem printItems_eq (items : List (JsonValue F)) :
    printItems format items = joinWith [','] (items.map (print format)) ++ [']'] := by
  induction items with
  | nil => rfl
  | cons v vs ih =>
    cases vs with
    | nil => rw [printItems, List.map_cons, List.map_nil, joinWith_singleton]
    | cons w ws =>
      rw [printItems, ih]
      · show _ = joinWith [','] (print format v :: print format w :: ws.map (print format)) ++ [']']
        simp only [joinWith_comma, List.append_assoc, List.cons_append, List.map_cons]
      · exact List.cons_ne_nil w ws

/-- The fields of an object are joined by commas. -/
theorem printFields_eq (fields : List (Text × JsonValue F)) :
    printFields format fields =
      joinWith [','] (fields.map fun field => fieldText (field.1, print format field.2)) ++ ['}'] := by
  induction fields with
  | nil => rfl
  | cons field fields ih =>
    obtain ⟨k, v⟩ := field
    cases fields with
    | nil => rw [printFields, List.map_cons, List.map_nil, joinWith_singleton, fieldText]
    | cons other others =>
      rw [printFields, ih]
      · show _ = joinWith [','] (fieldText (k, print format v) ::
          fieldText (other.1, print format other.2) ::
            others.map fun field => fieldText (field.1, print format field.2)) ++ ['}']
        simp only [joinWith_comma, fieldText, List.append_assoc, List.cons_append, List.map_cons]
      · exact List.cons_ne_nil other others

mutual

/-- **The canonical text is the text of the value with its fields sorted.** -/
theorem canonical_eq_print (v : JsonValue F) : canonical format v = print format (normalize v) := by
  match v with
  | .null => rfl
  | .bool true => rfl
  | .bool false => rfl
  | .int negative magnitude => rfl
  | .float f => rfl
  | .str s => rfl
  | .arr items =>
    rw [canonical, normalize, print, printItems_eq, canonicalItems_eq_print items,
      normalizeItems_eq]
    rfl
  | .obj fields =>
    -- sorting looks at the keys alone
    have hsort := sortByKey_map (fun field : Text × JsonValue F => (field.1, print format field.2))
      Prod.fst (normalizeFields fields)
    rw [canonical, normalize, print, printFields_eq, canonicalFields_eq_print fields, hsort,
      List.map_map]
    rfl

theorem canonicalItems_eq_print (items : List (JsonValue F)) :
    canonicalItems format items = (items.map normalize).map (print format) := by
  match items with
  | [] => rfl
  | v :: vs =>
    rw [canonicalItems, canonical_eq_print v, canonicalItems_eq_print vs]
    rfl

theorem canonicalFields_eq_print (fields : List (Text × JsonValue F)) :
    canonicalFields format fields =
      (normalizeFields fields).map fun field => (field.1, print format field.2) := by
  match fields with
  | [] => rfl
  | (k, v) :: fields =>
    rw [canonicalFields, canonical_eq_print v, canonicalFields_eq_print fields]
    rfl

end

/-! ### Values are the same when they are sorted to one value -/

theorem lookupField_eq_some {key : Text} {fields : List (Text × JsonValue F)} {w : JsonValue F}
    (hkeys : (fields.map Prod.fst).Nodup) :
    lookupField key fields = some w ↔ (key, w) ∈ fields := by
  rw [lookupField, Option.map_eq_some_iff]
  constructor
  · rintro ⟨⟨k, w⟩, hfind, rfl⟩
    have hkey : k = key := by simpa using List.find?_some hfind
    exact hkey ▸ List.mem_of_find?_eq_some hfind
  · intro hmem
    obtain ⟨field, hfind⟩ : ∃ field,
        fields.find? (fun field => decide (field.1 = key)) = some field := by
      rw [← Option.isSome_iff_exists, List.find?_isSome]
      exact ⟨(key, w), hmem, decide_eq_true rfl⟩
    have hkey : field.1 = key := by simpa using List.find?_some hfind
    have heq : field = (key, w) :=
      List.inj_on_of_nodup_map hkeys (List.mem_of_find?_eq_some hfind) hmem hkey
    exact ⟨field, hfind, by rw [heq]⟩

theorem map_fst_normalizeFields (fields : List (Text × JsonValue F)) :
    (normalizeFields fields).map Prod.fst = fields.map Prod.fst := by
  rw [normalizeFields_eq, List.map_map]
  rfl

/-- Sorted fields are the same list when they are the same set. -/
theorem sortByKey_fields_eq_iff {fields fields' : List (Text × JsonValue F)}
    (hkeys : (fields.map Prod.fst).Nodup) :
    sortByKey Prod.fst fields = sortByKey Prod.fst fields' ↔ fields.Perm fields' := by
  constructor
  · intro h
    exact (sortByKey_perm _ fields).symm.trans (h ▸ sortByKey_perm _ fields')
  · intro h
    exact sortByKey_eq_of_perm h fun a ha b hb => List.inj_on_of_nodup_map hkeys ha hb

mutual

/-- **Values are the same exactly when they are sorted to one value.** -/
theorem same_iff (v w : JsonValue F) (hv : UniqueKeys v) (hw : UniqueKeys w) :
    Same v w ↔ normalize v = normalize w := by
  match v, w with
  | .arr vs, .arr ws =>
    rw [Same, normalize, normalize, JsonValue.arr.injEq, normalizeItems_eq, normalizeItems_eq]
    exact sameItems_iff vs ws (uniqueKeysItems_iff.1 hv) (uniqueKeysItems_iff.1 hw)
  | .obj fields, .obj fields' =>
    obtain ⟨hkeys, hfields⟩ := hv
    obtain ⟨hkeys', hfields'⟩ := hw
    have hnodup : (normalizeFields fields).Nodup :=
      List.Nodup.of_map Prod.fst (map_fst_normalizeFields fields ▸ hkeys)
    rw [Same, normalize, normalize, JsonValue.obj.injEq,
      sortByKey_fields_eq_iff (map_fst_normalizeFields fields ▸ hkeys),
      sameFields_iff fields fields' hkeys' (uniqueKeysFields_iff.1 hfields)
        (uniqueKeysFields_iff.1 hfields')]
    have hlength : ∀ fields : List (Text × JsonValue F),
        (normalizeFields fields).length = fields.length := by
      intro fields
      rw [normalizeFields_eq, List.length_map]
    constructor
    · rintro ⟨hlen, hsub⟩
      refine (List.subperm_of_subset hnodup hsub).perm_of_length_le ?_
      rw [hlength, hlength, hlen]
    · intro hperm
      exact ⟨by rw [← hlength fields, hperm.length_eq, hlength], hperm.subset⟩
  | .null, w => cases w <;> simp [Same, normalize]
  | .bool b, w => cases w <;> simp [Same, normalize]
  | .int negative magnitude, w => cases w <;> simp [Same, normalize]
  | .float f, w => cases w <;> simp [Same, normalize]
  | .str s, w => cases w <;> simp [Same, normalize]
  | .arr vs, .null | .arr vs, .bool _ | .arr vs, .int .. | .arr vs, .float _ | .arr vs, .str _
  | .arr vs, .obj _ => simp [Same, normalize]
  | .obj fields, .null | .obj fields, .bool _ | .obj fields, .int .. | .obj fields, .float _
  | .obj fields, .str _ | .obj fields, .arr _ => simp [Same, normalize]

theorem sameItems_iff (vs ws : List (JsonValue F)) (hvs : ∀ v ∈ vs, UniqueKeys v)
    (hws : ∀ w ∈ ws, UniqueKeys w) :
    SameItems vs ws ↔ vs.map normalize = ws.map normalize := by
  match vs, ws with
  | [], [] => simp [SameItems]
  | [], _ :: _ => simp [SameItems]
  | _ :: _, [] => simp [SameItems]
  | v :: vs, w :: ws =>
    obtain ⟨hv, hvs⟩ := List.forall_mem_cons.1 hvs
    obtain ⟨hw, hws⟩ := List.forall_mem_cons.1 hws
    rw [SameItems, same_iff v w hv hw, sameItems_iff vs ws hvs hws, List.map_cons, List.map_cons,
      List.cons.injEq]

theorem sameFields_iff (fields fields' : List (Text × JsonValue F))
    (hkeys' : (fields'.map Prod.fst).Nodup) (hfields : ∀ field ∈ fields, UniqueKeys field.2)
    (hfields' : ∀ field ∈ fields', UniqueKeys field.2) :
    SameFields fields fields' ↔ normalizeFields fields ⊆ normalizeFields fields' := by
  match fields with
  | [] => simp [SameFields, normalizeFields]
  | (k, v) :: fields =>
    obtain ⟨hv, hfields⟩ := List.forall_mem_cons.1 hfields
    rw [SameFields, sameFields_iff fields fields' hkeys' hfields hfields', normalizeFields,
      List.cons_subset]
    refine and_congr_left fun _ => ?_
    constructor
    · rintro ⟨w, hlookup, hsame⟩
      have hmem := (lookupField_eq_some hkeys').1 hlookup
      rw [(same_iff v w hv (hfields' _ hmem)).1 hsame, normalizeFields_eq]
      exact List.mem_map_of_mem hmem
    · intro hmem
      rw [normalizeFields_eq] at hmem
      obtain ⟨⟨k', w⟩, hfield, heq⟩ := List.mem_map.1 hmem
      obtain ⟨rfl, hvalue⟩ := Prod.mk.inj heq
      exact ⟨w, (lookupField_eq_some hkeys').2 hfield,
        (same_iff v w hv (hfields' _ hfield)).2 hvalue.symm⟩

end

/-- **Two values have one canonical text exactly when they are the same.** -/
theorem canonical_eq_iff {v w : JsonValue F} (hv : UniqueKeys v) (hw : UniqueKeys w) :
    canonical format v = canonical format w ↔ Same v w := by
  rw [same_iff v w hv hw, canonical_eq_print, canonical_eq_print]
  constructor
  · intro h
    have hparse := @parse_print F format (normalize v)
    rw [h, parse_print] at hparse
    exact (Option.some.inj hparse).symm
  · intro h
    rw [h]

/-! ### Reading the canonical text -/

mutual

theorem uniqueKeys_normalize (v : JsonValue F) (h : UniqueKeys v) : UniqueKeys (normalize v) := by
  match v with
  | .null | .bool _ | .int .. | .float _ | .str _ => exact trivial
  | .arr items => exact uniqueKeysItems_normalize items h
  | .obj fields =>
    obtain ⟨hkeys, hfields⟩ := h
    have hperm := sortByKey_perm Prod.fst (normalizeFields fields)
    refine ⟨?_, uniqueKeysFields_iff.2 fun field hfield => ?_⟩
    · exact (hperm.map _).nodup_iff.2 (map_fst_normalizeFields fields ▸ hkeys)
    · exact uniqueKeysFields_iff.1 (uniqueKeysFields_normalize fields hfields) field
        (hperm.mem_iff.1 hfield)

theorem uniqueKeysItems_normalize (items : List (JsonValue F)) (h : UniqueKeysItems items) :
    UniqueKeysItems (normalizeItems items) := by
  match items with
  | [] => exact trivial
  | v :: vs => exact ⟨uniqueKeys_normalize v h.1, uniqueKeysItems_normalize vs h.2⟩

theorem uniqueKeysFields_normalize (fields : List (Text × JsonValue F))
    (h : UniqueKeysFields fields) : UniqueKeysFields (normalizeFields fields) := by
  match fields with
  | [] => exact trivial
  | (_, v) :: fields => exact ⟨uniqueKeys_normalize v h.1, uniqueKeysFields_normalize fields h.2⟩

end

mutual

/-- Sorted fields stay as they are. -/
theorem normalize_normalize (v : JsonValue F) : normalize (normalize v) = normalize v := by
  match v with
  | .null | .bool _ | .int .. | .float _ | .str _ => rfl
  | .arr items => rw [normalize, normalize, normalizeItems_normalizeItems items]
  | .obj fields =>
    have hfields : (normalizeFields fields).map normalizeField = normalizeFields fields := by
      rw [← normalizeFields_eq, normalizeFields_normalizeFields fields]
    -- sorting commutes with what is done to the fields, and twice is once
    have hsort := sortByKey_map normalizeField Prod.fst
      (sortByKey Prod.fst (normalizeFields fields))
    have hmap := sortByKey_map normalizeField Prod.fst (normalizeFields fields)
    have hsorted := sortByKey_of_sorted (sortByKey_sorted Prod.fst (normalizeFields fields))
    rw [hfields] at hmap
    rw [normalize, normalize, normalizeFields_eq (sortByKey Prod.fst (normalizeFields fields)), hsort]
    exact congrArg JsonValue.obj ((congrArg (List.map normalizeField) hsorted).trans hmap.symm)

theorem normalizeItems_normalizeItems (items : List (JsonValue F)) :
    normalizeItems (normalizeItems items) = normalizeItems items := by
  match items with
  | [] => rfl
  | v :: vs =>
    rw [normalizeItems, normalizeItems, normalize_normalize v, normalizeItems_normalizeItems vs]

theorem normalizeFields_normalizeFields (fields : List (Text × JsonValue F)) :
    normalizeFields (normalizeFields fields) = normalizeFields fields := by
  match fields with
  | [] => rfl
  | (_, v) :: fields =>
    rw [normalizeFields, normalizeFields, normalize_normalize v,
      normalizeFields_normalizeFields fields]

end

end JsonValue

end Lib
