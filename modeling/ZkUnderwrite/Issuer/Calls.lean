import ZkUnderwrite.Lib.Machine
import ZkUnderwrite.Issuer.Sign

/-!
# Sequences of commands

The two commands run one after the other in one directory, each on a system with its own faults, clock and
random bytes, and the pairs of files that belong together.
-/

namespace ZkUnderwrite.Issuer
open ByteString FileSystem

/-- The public key in the directory is that of the signing key in it. -/
def KeyPair (C : Crates) (dir : String) (fs : Directory) : Prop :=
  ∃ sk : BytesN 32, content fs ⟨dir, signingKeyFile⟩ = some sk.val ∧
    content fs ⟨dir, pubkeyFile⟩ = some (C.verifyingKey sk).val

/-- The signature in the directory is one of exactly the statement in it. -/
def SignedPair (C : Crates) (dir : String) (fs : Directory) : Prop :=
  ∃ (sk : BytesN 32) (message : Bytes), content fs ⟨dir, statementFile⟩ = some message ∧
    content fs ⟨dir, signatureFile⟩ = some (C.sign sk message).val

/-- The errors after which the signing key is new and the public key is not. -/
def IssuerError.tearsKeyPair (dir : String) : IssuerError → Bool
  | .setPermissions path _ => path = ⟨dir, signingKeyFile⟩
  | .writeFile path _ => path = ⟨dir, pubkeyFile⟩
  | _ => false

/-- The errors after which the statement is new and the signature is not. -/
def IssuerError.tearsSignedPair (dir : String) : IssuerError → Bool
  | .writeFile path _ => path = ⟨dir, signatureFile⟩
  | _ => false

inductive Operation where
  | keygen
  | sign (subjectId issuer : String) (incomesRaw : List String) (issuedAt : Option UInt64)

structure Call where
  os : Os
  operation : Operation

def failure {α : Type} : Except IssuerError α → Option IssuerError
  | .ok _ => none
  | .error e => some e

/-- One command: the error it reports, if any, and the files it leaves. -/
def step (C : Crates) (dir : String) (fs : Directory) (c : Call) : Option IssuerError × Directory :=
  match c.operation with
  | .keygen =>
      let outcome := (runKeygen C c.os dir).exec fs
      (failure outcome.1, outcome.2)
  | .sign subjectId issuer incomesRaw issuedAt =>
      let outcome := (runSign C c.os dir subjectId issuer incomesRaw issuedAt).exec fs
      (failure outcome.1, outcome.2)

end ZkUnderwrite.Issuer
