import Hemlig.Crypto.Envelope
import Mathlib

/-!
# Envelopes are bound to their secret and version

The document that the store answers may be any document: the fields of it that the reader compares
with the head are the ones that its binding is made of, so what opens under that binding was sealed
for the head.
-/

namespace Hemlig.Envelope

open Text Json

/-- A payload that is read was sealed for the head. -/
theorem sealed_of_readActivePayload {runtime : Runtime} {history : List Encryption}
    (hkms : IdealKms runtime) (hcipher : IdealCipher runtime history) {secretId : String} {head : HeadRecord}
    {control : ControlRevision} {document : PayloadRevision} {read : Value}
    (h : readActivePayload runtime secretId head control document = .ok read) :
    ∃ encryption ∈ history, Same encryption.payload read ∧
      encryption.binding.environment = head.environment ∧
      some encryption.binding.payloadVersionId = head.payloadVersionId ∧
      (encryption.binding.secretUid = some head.secretUid ∨
        encryption.binding.secretUid = none ∧ encryption.binding.secretId = secretId) := by
  unfold readActivePayload at h
  split_ifs at h with hactive hcontrol hreference hagrees
  have hdocument : SecretService.payloadAgrees document head secretId = true := by
    simpa using hagrees
  simp only [SecretService.payloadAgrees, decide_eq_true_eq] at hdocument
  obtain ⟨-, hsecretUid, hsecretId, henvironment, hversion⟩ := hdocument
  obtain ⟨encryption, hmem, hsame, htriple⟩ := sealed_of_decrypt hkms hcipher h
  have hidentity : encryption.binding.identity = (bindingOf document).identity :=
    congrArg (fun triple => triple.2.1) htriple
  refine ⟨encryption, hmem, hsame, ?_, ?_, ?_⟩
  · calc encryption.binding.environment = document.environment := congrArg Prod.fst htriple
      _ = head.environment := henvironment
  · calc some encryption.binding.payloadVersionId = some document.payloadVersionId :=
        congrArg (fun triple => some triple.2.2) htriple
      _ = head.payloadVersionId := hversion.symm
  · unfold PayloadBinding.identity bindingOf at hidentity
    cases huid : document.secretUid with
    | none =>
        cases hbound : encryption.binding.secretUid with
        | none =>
            simp only [hbound, huid, Identity.id.injEq] at hidentity
            exact .inr ⟨rfl, hidentity.trans hsecretId⟩
        | some secretUid => simp [hbound, huid] at hidentity
    | some secretUid =>
        have hhead : secretUid = head.secretUid := by
          simpa [huid] using hsecretUid
        cases hbound : encryption.binding.secretUid with
        | none => simp [hbound, huid] at hidentity
        | some secretUid' =>
            simp only [hbound, huid, Identity.uid.injEq] at hidentity
            exact .inl (by rw [hidentity, hhead])

/-- **An envelope opens to its payload, and only for the head that it was sealed for.** -/
theorem envelopes_bound (runtime : Runtime) (history : List Encryption)
    (hkms : IdealKms runtime) (hcipher : IdealCipher runtime history) :
    (∀ call encryption revision, history[call]? = some encryption →
      encrypt runtime call encryption.payload encryption.binding encryption.actor
          encryption.createdAt = .ok revision →
        ∃ read, decrypt runtime revision = .ok read ∧ Same encryption.payload read) ∧
    (∀ secretId head control document read,
      readActivePayload runtime secretId head control document = .ok read →
        ∃ encryption ∈ history, Same encryption.payload read ∧
          encryption.binding.environment = head.environment ∧
          some encryption.binding.payloadVersionId = head.payloadVersionId ∧
          (encryption.binding.secretUid = some head.secretUid ∨
            encryption.binding.secretUid = none ∧ encryption.binding.secretId = secretId)) ∧
    ∀ binding binding' : PayloadBinding, binding.triple ≠ binding'.triple →
      ¬ (context binding).Perm (context binding') ∧
        aad runtime binding ≠ aad runtime binding' := by
  refine ⟨fun _ _ _ hcall h => decrypt_encrypt hkms hcipher hcall h,
    fun _ _ _ _ _ h => sealed_of_readActivePayload hkms hcipher h, fun _ _ hdiffer => ?_⟩
  exact ⟨fun hperm => hdiffer (triple_of_context hperm),
    fun heq => hdiffer (triple_of_aad runtime heq)⟩

/-! ## One envelope -/

namespace Sample

def binding : PayloadBinding where
  environment := "prod"
  secretUid := some "sec-a"
  secretId := "api-key"
  payloadVersionId := "pay-a"

def payload : Value := .object [(units "token", .string (units "x"))]

def localeCompare (_ _ : JsString) : ℤ := 0

def plaintext : ByteArray := utf8 (Util.Encoding.stableJson localeCompare payload)

def additional : ByteArray :=
  utf8 (Util.Encoding.stableJson localeCompare (contextJson (context binding)))

/-- One data key, and one ciphertext that opens. -/
def runtime : Runtime where
  localeCompare := localeCompare
  repaired _ := []
  generateDataKey call context' :=
    if call = 0 ∧ context' = context binding then (some [1], some [2]) else (none, none)
  decryptDataKey encryptedDataKey context' :=
    if encryptedDataKey = [2] ∧ context' = context binding then some (some [1]) else none
  randomBytes _ := [3]
  cipher _ _ _ plaintext := (plaintext.data.toList, [4])
  decipher key iv additional' output :=
    if key = [1] ∧ iv = [3] ∧ additional' = additional ∧ output = (plaintext.data.toList, [4]) then
      some plaintext
    else none

def actor : Actor := { type := .human, id := "operator" }

end Sample

theorem Sample.keyed_payload : Keyed Set.univ Sample.payload :=
  .object (List.nodup_singleton _) (fun _ _ => trivial)
    (List.forall_mem_singleton.mpr (.string _))

namespace Sample

def encryption : Encryption where
  payload := payload
  keyed := keyed_payload
  binding := binding
  actor := actor
  createdAt := 0

end Sample

theorem Sample.generates : Sample.runtime.generateDataKey 0 (context Sample.binding) =
    (some [1], some [2]) := by
  simp [Sample.runtime]

theorem Sample.generated {call : ℕ} {context' : Context} {key encryptedDataKey : Bytes}
    (h : Sample.runtime.generateDataKey call context' = (some key, some encryptedDataKey)) :
    call = 0 ∧ context' = context Sample.binding ∧ key = [1] ∧ encryptedDataKey = [2] := by
  unfold Sample.runtime at h
  dsimp only at h
  split_ifs at h with hfirst
  · cases h
    exact ⟨hfirst.1, hfirst.2, rfl, rfl⟩
  · cases h

theorem Sample.idealKms : IdealKms Sample.runtime where
  decrypts := by
    intro call context' key encryptedDataKey h
    obtain ⟨-, rfl, rfl, rfl⟩ := Sample.generated h
    simp [Sample.runtime]
  bound := by
    intro encryptedDataKey context' key h
    unfold Sample.runtime at h
    dsimp only at h
    split_ifs at h with hfirst
    obtain ⟨rfl, rfl⟩ := hfirst
    cases h
    exact ⟨0, _, .refl _, Sample.generates⟩

theorem Sample.idealCipher : IdealCipher Sample.runtime [Sample.encryption] where
  opens := by
    rintro key iv additional plaintext ⟨call, encryption, encryptedDataKey, hcall, hgenerate,
      rfl, rfl, rfl⟩
    obtain ⟨rfl, -, rfl, -⟩ := Sample.generated hgenerate
    obtain rfl : Sample.encryption = encryption := Option.some.inj hcall
    exact if_pos ⟨rfl, rfl, rfl, rfl⟩
  authentic := by
    intro call context' key encryptedDataKey iv additional output plaintext hgenerate h
    unfold Sample.runtime at h
    dsimp only at h
    split_ifs at h with hopens
    obtain ⟨rfl, rfl, rfl, -⟩ := hopens
    cases h
    exact ⟨0, Sample.encryption, [2], rfl, Sample.generates, rfl, rfl, rfl⟩

/-- The envelope of a payload opens to it. -/
theorem envelopes_bound_one : ∃ revision read,
    encrypt Sample.runtime 0 Sample.payload Sample.binding Sample.actor 0 = .ok revision ∧
      decrypt Sample.runtime revision = .ok read ∧ Same Sample.payload read := by
  obtain ⟨revision, hrevision⟩ : ∃ revision,
      encrypt Sample.runtime 0 Sample.payload Sample.binding Sample.actor 0 = .ok revision := by
    unfold encrypt
    rw [Sample.generates]
    exact ⟨_, rfl⟩
  obtain ⟨read, hread, hsame⟩ := (envelopes_bound Sample.runtime [Sample.encryption]
    Sample.idealKms Sample.idealCipher).1 0 Sample.encryption revision rfl hrevision
  exact ⟨revision, read, hrevision, hread, hsame⟩

end Hemlig.Envelope
