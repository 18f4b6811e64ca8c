import Hemlig.Repositories.Registry

/-!
# The issuer

`src/services/issuer.ts`: the one issuing root of a deployment.  Keys and
certificates are made by the process itself or by KMS; what they are is left to the
environment.
-/

namespace Hemlig

open Concurrent

structure IssuedApiIdentity where
  rootFingerprint : String
  subjectUri : String
  apiIdentity : ApiIdentity
  deriving DecidableEq, Repr

namespace IssuerService

open DynamoRepository

def maximumCsrBytes : ℕ := 32768

def beginCertificateRequest : String := "-----BEGIN CERTIFICATE REQUEST-----"

/-- How often a pattern is met, from left to right and without overlaps; the first
`skip` characters belong to the last match. -/
def occurrences (pattern : List Char) : ℕ → List Char → ℕ
  | _, [] => 0
  | skip + 1, _ :: rest => occurrences pattern skip rest
  | 0, char :: rest =>
      if pattern.isPrefixOf (char :: rest) then
        occurrences pattern (pattern.length - 1) rest + 1
      else occurrences pattern 0 rest

/-- What a request that parses and verifies says. -/
def parseAndVerifyCsr (csr : CertificateRequest) : Except ApiError CertificationRequest :=
  if csr.pem = "" ∨ csr.pem.utf8ByteSize > maximumCsrBytes ∨
      occurrences beginCertificateRequest.toList 0 csr.pem.toList ≠ 1 then
    .error (badRequest "apiCertificateSigningRequestPem must be one CSR of at most 32 KiB.")
  else
    match csr.parsed with
    | some parsed => .ok parsed
    | none => .error (badRequest ("apiCertificateSigningRequestPem must be a valid signed RSA " ++
        "CSR with a 2048-bit-or-larger key."))

/-- The digest of the request, represented by the request. -/
def certificateRequestFingerprint (csr : CertificateRequest) :
    Except ApiError CertificationRequest :=
  parseAndVerifyCsr csr

/-- The certificate is for the key of the request. -/
def certificateRequestMatchesCertificate (csr : CertificateRequest)
    (certificate : LeafCertificate) : Except ApiError Bool := do
  let parsed ← parseAndVerifyCsr csr
  return parsed.publicKey = certificate.publicKey

def encryptPrivateKey : Service String := do
  requireSome (serviceUnavailable "KMS did not return an issuer data key.")
    (← send .encryptIssuerKey)

def decryptPrivateKey (encryptedPrivateKey : String) : Service Unit := do
  match ← send (.decryptIssuerKey encryptedPrivateKey) with
  | none => return ()
  | some .undecrypted => reject (serviceUnavailable "KMS did not decrypt the issuer data key.")
  | some .invalid => reject (serviceUnavailable "The encrypted Hemlig issuing key is invalid.")

/-- The issuer, and whether this call created it. -/
def getOrCreateIssuer : Service (IssuerRecord × Bool) := do
  match ← getIssuer with
  | some existing =>
      ensureIssuerTruststoreRoot existing
      return (existing, false)
  | none =>
      let now ← send .now
      let root ← send .newRoot
      let encryptedPrivateKey ← encryptPrivateKey
      let issuer : IssuerRecord :=
        { rootCertificatePem := root.pem
          encryptedPrivateKey := encryptedPrivateKey
          fingerprint := root.fingerprint
          notBefore := root.notBefore
          notAfter := root.notAfter
          createdAt := now }
      let created ← createIssuer issuer
      return (created, created.fingerprint = issuer.fingerprint)

def issuerFingerprint : Service String := do
  let (issuer, _) ← getOrCreateIssuer
  return issuer.fingerprint

def ensureIssuer : Service (IssuerRecord × Bool) := getOrCreateIssuer

def issueApiIdentity (consumerId environment : String) (csr : CertificateRequest) :
    Service IssuedApiIdentity := do
  let parsed ← assertOk (parseAndVerifyCsr csr)
  let (issuer, _) ← getOrCreateIssuer
  decryptPrivateKey issuer.encryptedPrivateKey
  let certificate ← requireSome
    (serviceUnavailable "Could not issue the consumer API certificate.")
    (← send (.issueLeaf issuer consumerId csr))
  return {
    rootFingerprint := issuer.fingerprint
    subjectUri := "spiffe://hemlig/consumer/" ++ consumerId
    apiIdentity :=
      { fingerprint := certificate.fingerprint
        consumerId := consumerId
        environment := environment
        kind := .api
        notBefore := certificate.notBefore
        notAfter := certificate.notAfter
        certificatePem := { pem := certificate.pem, publicKey := parsed.publicKey } } }

end IssuerService

end Hemlig
