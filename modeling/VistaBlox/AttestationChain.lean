import VistaBlox.Evm

/-!
# The chain of trust of an attested key

A device hands in the certificates of its key, and its keys sign whatever they are
asked to. A leaf counts only if an authority that descends from a pinned root issued it.
-/
namespace AndroidAttestation

open Evm

structure BasicConstraints where
  ca : Bool
  pathLength : Option Nat

/-- What the library reads in the bytes of a certificate. -/
structure Fields where
  issuerName : List UInt8
  subjectName : List UInt8
  notBefore : Nat
  notAfter : Nat
  publicKey : List UInt8
  basicConstraints : Option BasicConstraints
  keyUsages : Option Nat

def Fields.ca (f : Fields) : Bool := f.basicConstraints.any BasicConstraints.ca

/-- `KeyUsageFlags.keyCertSign` is bit 5. -/
def Fields.keyCertSign (f : Fields) : Bool := f.keyUsages.any (Nat.testBit · 5)

def Fields.pathLength (f : Fields) : Option Nat := f.basicConstraints.bind BasicConstraints.pathLength

/-- A certificate is its DER bytes: two with the same bytes are one. -/
structure X509Certificate (parse : List UInt8 → Fields) where
  rawData : List UInt8

def X509Certificate.fields (c : X509Certificate parse) : Fields := parse c.rawData

-- `parse` is the library's reading of DER bytes, `verify` its check of a signature at a date.
variable {parse : List UInt8 → Fields} (verify : X509Certificate parse → List UInt8 → Nat → Bool)
  (pinnedRoots : List (X509Certificate parse)) (now : Nat)

/-- The loop of `verifyChainOfTrust` from index `i` on. -/
def verifyFrom (i : Nat) : List (X509Certificate parse) → Except String Unit
  | [] => .ok ()
  | certificate :: rest => do
    revertIf (now < certificate.fields.notBefore ∨ certificate.fields.notAfter < now)
      "a certificate in the chain is expired or not yet valid"
    match rest with
    | issuer :: _ =>
      revertIf (certificate.fields.issuerName ≠ issuer.fields.subjectName)
        "a certificate's issuer name does not match the next certificate's subject"
      revertIf (verify certificate issuer.fields.publicKey now = false) "chain signature verification failed"
      revertIf (issuer.fields.ca = false) "a certificate that signed another one in the chain is not marked as a CA"
      revertIf (issuer.fields.keyCertSign = false)
        "a certificate that signed another one in the chain lacks the keyCertSign key usage"
      revertIf (issuer.fields.pathLength.any (· < i) = true)
        "the certificate chain exceeds an issuer's path length constraint"
    | [] =>
      revertIf (pinnedRoots.any (fun root => root.rawData = certificate.rawData) = false)
        "chain does not terminate at a pinned root"
    verifyFrom (i + 1) rest

def verifyChainOfTrust (chain : List (X509Certificate parse)) : Except String Unit :=
  verifyFrom verify pinnedRoots now 0 chain

/-- A pinned root, or issued by a genuine authority. -/
inductive Genuine (issued : X509Certificate parse → X509Certificate parse → Prop) : X509Certificate parse → Prop where
  | pinned : c ∈ pinnedRoots → Genuine issued c
  | issued (ca : X509Certificate parse) : Genuine issued ca → ca.fields.ca = true → ca.fields.keyCertSign = true →
    issued ca c → Genuine issued c

variable {verify pinnedRoots now} {issued : X509Certificate parse → X509Certificate parse → Prop}

section Genuine

-- The keys of genuine authorities sign only what those authorities issue; other keys sign anything.
variable (hkeys : ∀ ca c, Genuine pinnedRoots issued ca → ca.fields.ca = true → ca.fields.keyCertSign = true →
  verify c ca.fields.publicKey now = true → issued ca c)

include hkeys

/-- The loop from any index on accepts only genuine certificates: the top is a pinned
root itself, and each issuer vouches for the certificate below it. -/
theorem verifyFrom_genuine (h : verifyFrom verify pinnedRoots now k chain = .ok ()) (hc : chain[i]? = some c) :
    Genuine pinnedRoots issued c ∧ (c.fields.notBefore ≤ now ∧ now ≤ c.fields.notAfter) ∧
      ∀ n ∈ c.fields.pathLength, i = 0 ∨ k + i ≤ n + 1 := by
  induction chain generalizing k i c with
  | nil => cases hc
  | cons certificate rest ih =>
    obtain ⟨hvalid, h⟩ := revertIf_bind_ok.mp h
    cases rest with
    | nil =>
      obtain ⟨hpinned, -⟩ := revertIf_bind_ok.mp h
      cases i with
      | zero =>
        cases hc
        obtain ⟨⟨bytes⟩, hroot, hraw⟩ := List.any_eq_true.mp (Bool.not_eq_false _ ▸ hpinned)
        obtain rfl : bytes = certificate.rawData := of_decide_eq_true hraw
        exact ⟨.pinned hroot, by omega, fun _ _ => .inl rfl⟩
      | succ i => cases hc
    | cons issuer rest =>
      simp only [revertIf_bind_ok, Bool.not_eq_false, Bool.not_eq_true] at h
      obtain ⟨-, hsigned, hca, hsign, hpath, hrest⟩ := h
      cases i with
      | zero =>
        cases hc
        have hissuer := (ih hrest (List.getElem?_cons_zero ..)).1
        exact ⟨.issued issuer hissuer hca hsign (hkeys _ _ hissuer hca hsign hsigned), by omega, fun _ _ => .inl rfl⟩
      | succ i =>
        obtain ⟨hgenuine, htime, hlength⟩ := ih hrest hc
        refine ⟨hgenuine, htime, fun n hn => .inr ?_⟩
        obtain rfl | hle := hlength n hn
        · -- the next certificate, whose limit this step checks
          cases hc
          simp [Option.mem_def.mp hn] at hpath
          omega
        · omega

/-- Every certificate of an accepted chain is genuine and in its time, and has
no more authorities below it than it allows. -/
theorem accepted_chain_genuine (h : verifyChainOfTrust verify pinnedRoots now chain = .ok ())
    (hc : chain[i]? = some c) :
    Genuine pinnedRoots issued c ∧ (c.fields.notBefore ≤ now ∧ now ≤ c.fields.notAfter) ∧
      ∀ n ∈ c.fields.pathLength, i ≤ n + 1 := by
  obtain ⟨hgenuine, htime, hlength⟩ := verifyFrom_genuine hkeys h hc
  refine ⟨hgenuine, htime, fun n hn => ?_⟩
  have := hlength n hn
  omega

end Genuine

/-- Three bytes: the name, which is also the key, the issuer, and whether it is an authority. -/
def sampleParse : List UInt8 → Fields
  | [key, issuer, ca] => ⟨[issuer], [key], 0, 9, [key], some ⟨ca = 1, some 1⟩, some 32⟩
  | _ => ⟨[], [], 0, 0, [], none, none⟩

def sample (key issuer ca : UInt8) : X509Certificate sampleParse := ⟨[key, issuer, ca]⟩

theorem accepted_chain_genuine_sample :
    Genuine [sample 1 1 1] (fun ca c => c.fields.issuerName = ca.fields.publicKey) (sample 3 2 0) := by
  have haccepted : verifyChainOfTrust (fun c key _ => c.fields.issuerName = key) [sample 1 1 1] 5
    [sample 3 2 0, sample 2 1 1, sample 1 1 1] = .ok () := rfl
  exact (accepted_chain_genuine (i := 0) (fun _ _ _ _ _ => of_decide_eq_true) haccepted rfl).1

end AndroidAttestation
