import Hemlig.Services.Secrets
import Hemlig.Text.Base64
import Hemlig.Util.Encoding

/-!
# The envelope of a payload

`src/crypto/envelope.ts`: a payload is sealed with a data key of its own, under an encryption
context and additional data that name its secret and its version.  What KMS, the cipher and the
runtime do is the parameter `Runtime`.  The reader is `readActivePayload` of
`src/services/secrets.ts`, with the documents that the store answers as arguments, whoever wrote
them.
-/

namespace Hemlig.Envelope

open Text Json Util.Encoding

abbrev Bytes := List UInt8

/-- An encryption context: keys and values, which KMS compares whatever their order. -/
abbrev Context := List (String × String)

structure Runtime where
  localeCompare : JsString → JsString → ℤ
  /-- The text of bytes that are not UTF-8. -/
  repaired : ByteArray → JsString
  /-- `GenerateDataKey`: the key and its encrypted form, by the number of the call. -/
  generateDataKey : ℕ → Context → Option Bytes × Option Bytes
  /-- `Decrypt`, which fails or answers with or without a key. -/
  decryptDataKey : Bytes → Context → Option (Option Bytes)
  randomBytes : ℕ → Bytes
  /-- AES-256-GCM with a key, an initialization vector and additional data: ciphertext and tag. -/
  cipher : Bytes → Bytes → ByteArray → ByteArray → Bytes × Bytes
  decipher : Bytes → Bytes → ByteArray → Bytes × Bytes → Option ByteArray

/-- What a payload is bound to; `secretUid` is absent only from revisions before UIDs. -/
structure PayloadBinding where
  environment : String
  secretUid : Option String
  secretId : String
  payloadVersionId : String
  deriving DecidableEq

/-- What is thrown. -/
inductive Thrown
  | api (error : ApiError)
  | kms
  | cipher
  | unparsable
  deriving DecidableEq

section Functions

variable (runtime : Runtime)

def context (binding : PayloadBinding) : Context :=
  [("service", "hemlig"), ("purpose", "secret-payload"), ("environment", binding.environment),
    match binding.secretUid with
    | none => ("secretId", binding.secretId)
    | some secretUid => ("secretUid", secretUid),
    ("payloadVersionId", binding.payloadVersionId)]

/-- The context as the object that is written. -/
def contextJson (context : Context) : Value :=
  .object (context.map fun field => (utf16 field.1, .string (utf16 field.2)))

def aad (binding : PayloadBinding) : ByteArray :=
  utf8 (stableJson runtime.localeCompare (contextJson (context binding)))

/-! ## Base64 -/

/-- `Buffer.prototype.toString("base64")`. -/
def toBase64 (bytes : Bytes) : String := String.ofList (characters (encodeBase64 bytes))

/-- `Buffer.from(text, "base64")`. -/
def fromBase64 (text : String) : Bytes := bufferFromBase64 (utf16 text)

/-! ## Sealing and opening -/

/-- The bytes that are sealed. -/
def plaintextOf (payload : Value) : ByteArray := utf8 (stableJson runtime.localeCompare payload)

/-- `encrypt`, as the call of that number. -/
def encrypt (call : ℕ) (payload : Value) (binding : PayloadBinding) (actor : Actor)
    (createdAt : Time) : Except Thrown PayloadRevision :=
  match runtime.generateDataKey call (context binding) with
  | (some key, some encryptedDataKey) =>
      let iv := runtime.randomBytes call
      let sealed := runtime.cipher key iv (aad runtime binding) (plaintextOf runtime payload)
      .ok {
        schemaVersion := 1
        secretUid := binding.secretUid
        secretId := binding.secretId
        payloadVersionId := binding.payloadVersionId
        environment := binding.environment
        createdAt := createdAt
        createdBy := actor
        payload := {
          encryptedDataKey := toBase64 encryptedDataKey
          iv := toBase64 iv
          tag := toBase64 sealed.2
          ciphertext := toBase64 sealed.1 } }
  | _ => .error (.api (serviceUnavailable "KMS did not return a data key."))

/-- The binding of a revision has the shape of the context under which it was sealed. -/
def bindingOf (revision : PayloadRevision) : PayloadBinding where
  environment := revision.environment
  secretUid := revision.secretUid
  secretId := revision.secretId
  payloadVersionId := revision.payloadVersionId

/-- `JSON.parse(plaintext.toString("utf8"))`. -/
def readPlaintext (plaintext : ByteArray) : Except Thrown Value :=
  match parse ((textOf plaintext).getD (runtime.repaired plaintext)) with
  | none => .error .unparsable
  | some payload => .ok payload

def decrypt (revision : PayloadRevision) : Except Thrown Value :=
  let binding := bindingOf revision
  match runtime.decryptDataKey (fromBase64 revision.payload.encryptedDataKey) (context binding) with
  | none => .error .kms
  | some none =>
      .error (.api (serviceUnavailable "KMS did not return plaintext key material."))
  | some (some key) =>
      match runtime.decipher key (fromBase64 revision.payload.iv) (aad runtime binding)
          (fromBase64 revision.payload.ciphertext, fromBase64 revision.payload.tag) with
      | none => .error .cipher
      | some plaintext => readPlaintext runtime plaintext

/-- `readActivePayload`, where the store answers with these documents. -/
def readActivePayload (secretId : String) (head : HeadRecord) (control : ControlRevision)
    (payload : PayloadRevision) : Except Thrown Value :=
  if head.payloadVersionId.isNone then
    .error (.api (notFound "The secret has no active payload."))
  else if !SecretService.controlAgrees control head secretId then
    .error (.api (serviceUnavailable "The secret head and control revision do not agree."))
  else if (SecretService.payloadReference head).isNone then
    .error (.api (serviceUnavailable
      "The secret payload does not have an immutable object version."))
  else if !SecretService.payloadAgrees payload head secretId then
    .error (.api (serviceUnavailable
      "The secret payload revision does not match the authorized head."))
  else decrypt runtime payload

end Functions

/-! ## Contexts and additional data name one binding -/

/-- A secret is named by its UID, or in old revisions by its id. -/
inductive Identity
  | uid (secretUid : String)
  | id (secretId : String)
  deriving DecidableEq

def PayloadBinding.identity (binding : PayloadBinding) : Identity :=
  match binding.secretUid with
  | none => .id binding.secretId
  | some secretUid => .uid secretUid

/-- Environment, identity and version. -/
def PayloadBinding.triple (binding : PayloadBinding) : String × Identity × String :=
  (binding.environment, binding.identity, binding.payloadVersionId)

theorem nodup_context (binding : PayloadBinding) : ((context binding).map Prod.fst).Nodup := by
  cases hsecretUid : binding.secretUid with
  | none =>
      simp only [context, hsecretUid, List.map_cons, List.map_nil]
      decide
  | some secretUid =>
      simp only [context, hsecretUid, List.map_cons, List.map_nil]
      decide

/-- The value of a key of a context. -/
def valueOf (key : String) (context : Context) : Option String :=
  (context.find? fun field => field.1 = key).map Prod.snd

/-- A binding is found again in its context. -/
theorem triple_of_valueOf {binding binding' : PayloadBinding}
    (h : ∀ key, valueOf key (context binding) = valueOf key (context binding')) :
    binding.triple = binding'.triple := by
  have henvironment := h "environment"
  have hversion := h "payloadVersionId"
  have huid := h "secretUid"
  have hid := h "secretId"
  obtain ⟨environment, secretUid, secretId, version⟩ := binding
  obtain ⟨environment', secretUid', secretId', version'⟩ := binding'
  unfold PayloadBinding.triple PayloadBinding.identity
  cases secretUid <;> cases secretUid' <;> simp_all [valueOf, context]

theorem fieldOf_contextJson (context : Context) (key : String) :
    fieldOf (utf16 key) (contextJson context) = (valueOf key context).map utf16 := by
  have hget : Entries.get (utf16 key)
      (context.map fun field => (utf16 field.1, Value.string (utf16 field.2))) =
        (valueOf key context).map fun value => Value.string (utf16 value) := by
    unfold Entries.get valueOf
    induction context with
    | nil => rfl
    | cons field rest ih =>
        rw [List.map_cons, List.find?_cons, List.find?_cons]
        by_cases hkey : field.1 = key
        · simp [hkey]
        · have hdiffer : utf16 field.1 ≠ utf16 key := fun heq => hkey (utf16_inj.mp heq)
          simp only [hkey, hdiffer, decide_false]
          exact ih
  rw [contextJson, fieldOf, hget, Option.bind_map, Option.map_eq_bind]
  rfl

theorem keyed_contextJson (binding : PayloadBinding) :
    Keyed Set.univ (contextJson (context binding)) := by
  have hkeys : Entries.keys ((context binding).map fun field =>
      (utf16 field.1, Value.string (utf16 field.2))) =
        ((context binding).map Prod.fst).map utf16 := by
    unfold Entries.keys
    rw [List.map_map, List.map_map]
    rfl
  refine .object ?_ (fun _ _ => trivial) fun entry hmem => ?_
  · rw [hkeys]
    exact (nodup_context binding).map fun _ _ heq => utf16_inj.mp heq
  · obtain ⟨field, -, rfl⟩ := List.mem_map.mp hmem
    exact .string _

theorem triple_of_same {binding binding' : PayloadBinding}
    (h : Same (contextJson (context binding)) (contextJson (context binding'))) :
    binding.triple = binding'.triple := by
  refine triple_of_valueOf fun key => ?_
  have hfield := h.fieldOf_eq (keyed_contextJson binding) (utf16 key)
  rw [fieldOf_contextJson, fieldOf_contextJson] at hfield
  exact Option.map_injective (fun _ _ heq => utf16_inj.mp heq) hfield

/-- Contexts of different bindings differ, whatever the order of their keys. -/
theorem triple_of_context {binding binding' : PayloadBinding}
    (h : (context binding).Perm (context binding')) : binding.triple = binding'.triple :=
  triple_of_same (.perm (h.map _))

theorem triple_of_aad (runtime : Runtime) {binding binding' : PayloadBinding}
    (h : aad runtime binding = aad runtime binding') : binding.triple = binding'.triple := by
  have htext := eq_of_utf8_eq (wellFormed_stringify 0 _) (wellFormed_stringify 0 _) h
  exact triple_of_same
    (same_of_stableJson_eq (keyed_contextJson binding) (keyed_contextJson binding') htext)

/-! ## Ideal primitives -/

/-- A payload that was sealed, with what it was bound to. -/
structure Encryption where
  payload : Value
  keyed : Keyed Set.univ payload
  binding : PayloadBinding
  actor : Actor
  createdAt : Time

section Ideal

variable (runtime : Runtime) (history : List Encryption)

/-- The bytes were sealed by an encryption of the history, under the data key of that call. -/
def Sealed (key iv : Bytes) (additional plaintext : ByteArray) : Prop :=
  ∃ call encryption encryptedDataKey, history[call]? = some encryption ∧
    runtime.generateDataKey call (context encryption.binding) =
      (some key, some encryptedDataKey) ∧
    iv = runtime.randomBytes call ∧ additional = aad runtime encryption.binding ∧
    plaintext = plaintextOf runtime encryption.payload

/-- KMS decrypts a data key under the context that it was generated for, and under no other. -/
structure IdealKms : Prop where
  decrypts : ∀ {call context key encryptedDataKey},
    runtime.generateDataKey call context = (some key, some encryptedDataKey) →
      runtime.decryptDataKey encryptedDataKey context = some (some key)
  bound : ∀ {encryptedDataKey context key},
    runtime.decryptDataKey encryptedDataKey context = some (some key) →
      ∃ call context', context'.Perm context ∧
        runtime.generateDataKey call context' = (some key, some encryptedDataKey)

/-- What was sealed is opened; what opens under a data key of KMS was sealed under it, with the
same additional data. -/
structure IdealCipher : Prop where
  opens : ∀ {key iv additional plaintext}, Sealed runtime history key iv additional plaintext →
    runtime.decipher key iv additional (runtime.cipher key iv additional plaintext) =
      some plaintext
  authentic : ∀ {call context key encryptedDataKey iv additional output plaintext},
    runtime.generateDataKey call context = (some key, some encryptedDataKey) →
      runtime.decipher key iv additional output = some plaintext →
        Sealed runtime history key iv additional plaintext

end Ideal

variable {runtime : Runtime} {history : List Encryption}

/-! ## Opening what was sealed -/

theorem wellFormed_encodeBase64 (bytes : Bytes) : WellFormed (encodeBase64 bytes) := by
  refine wellFormed_of_units (unit_of_encodeBase64 ?_ ?_ bytes)
  · decide
  · decide

theorem fromBase64_toBase64 (bytes : Bytes) : fromBase64 (toBase64 bytes) = bytes := by
  unfold fromBase64 toBase64
  rw [utf16_ofList_characters (wellFormed_encodeBase64 bytes), bufferFromBase64_encodeBase64]

/-- The plaintext is read as the payload, with the entries of objects in another order. -/
theorem readPlaintext_plaintextOf (runtime : Runtime) {payload : Value}
    (h : Keyed Set.univ payload) :
    ∃ read, readPlaintext runtime (plaintextOf runtime payload) = .ok read ∧ Same payload read := by
  obtain ⟨read, hread, hsame⟩ := parse_stableJson runtime.localeCompare h
  have htext : textOf (plaintextOf runtime payload) =
      some (stableJson runtime.localeCompare payload) := textOf_utf8 (wellFormed_stringify 0 _)
  refine ⟨read, ?_, hsame⟩
  unfold readPlaintext
  rw [htext, Option.getD_some, hread]

theorem decrypt_encrypt (hkms : IdealKms runtime) (hcipher : IdealCipher runtime history)
    {call : ℕ} {encryption : Encryption} (hcall : history[call]? = some encryption)
    {revision : PayloadRevision} (h : encrypt runtime call encryption.payload encryption.binding
      encryption.actor encryption.createdAt = .ok revision) :
    ∃ read, decrypt runtime revision = .ok read ∧ Same encryption.payload read := by
  obtain ⟨read, hread, hsame⟩ := readPlaintext_plaintextOf runtime encryption.keyed
  refine ⟨read, ?_, hsame⟩
  unfold encrypt at h
  split at h
  · rename_i key encryptedDataKey hgenerate
    have hopens := hcipher.opens ⟨call, encryption, encryptedDataKey, hcall, hgenerate, rfl, rfl, rfl⟩
    obtain rfl := Except.ok.inj h
    have hbinding : ∀ payload, bindingOf
        { schemaVersion := 1
          secretUid := encryption.binding.secretUid
          secretId := encryption.binding.secretId
          payloadVersionId := encryption.binding.payloadVersionId
          environment := encryption.binding.environment
          createdAt := encryption.createdAt
          createdBy := encryption.actor
          payload := payload } = encryption.binding := fun _ => rfl
    unfold decrypt
    rw [hbinding]
    simp only [fromBase64_toBase64, hkms.decrypts hgenerate, hopens, hread]
  · cases h

/-- What is decrypted was sealed for the binding of the revision. -/
theorem sealed_of_decrypt (hkms : IdealKms runtime) (hcipher : IdealCipher runtime history)
    {revision : PayloadRevision} {read : Value} (h : decrypt runtime revision = .ok read) :
    ∃ encryption ∈ history, Same encryption.payload read ∧
      encryption.binding.triple = (bindingOf revision).triple := by
  unfold decrypt at h
  dsimp only at h
  split at h
  · cases h
  · cases h
  · rename_i key hkey
    obtain ⟨call, context', -, hgenerate⟩ := hkms.bound hkey
    split at h
    · cases h
    · rename_i plaintext hplaintext
      obtain ⟨_, encryption, _, hcall, -, -, hadditional, rfl⟩ :=
        hcipher.authentic hgenerate hplaintext
      obtain ⟨payload, hpayload, hsame⟩ := readPlaintext_plaintextOf runtime encryption.keyed
      rw [hpayload] at h
      obtain rfl := Except.ok.inj h
      exact ⟨encryption, List.mem_of_getElem? hcall, hsame, (triple_of_aad runtime hadditional).symm⟩

end Hemlig.Envelope
