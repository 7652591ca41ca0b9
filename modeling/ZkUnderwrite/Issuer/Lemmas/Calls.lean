import ZkUnderwrite.Issuer.Calls
import ZkUnderwrite.Issuer.Lemmas.Sign

/-!
# Where the commands stop

Each command writes its two files one after the other. When it reports an error, the second file is as it
was, and so is the first unless the error came after its write.
-/

namespace ZkUnderwrite.Issuer
open ByteString Serde Transaction FileSystem

variable {C : Crates} {os : Os} {dir : String} {fs fs' : Directory}

/-- Of a command that stops before or after the write of its first file `p`: what that error says of
the files. -/
theorem files_of_error {p : Path} {tears : Bool} {Q : Prop}
    (h : (fs' = fs ∧ tears = false) ∨ (tears = true ∧ (∀ q, q ≠ p → fs' q = fs q) ∧ Q)) :
    (∀ q, q ≠ p → fs' q = fs q) ∧ if tears then Q else fs' p = fs p := by
  rcases h with ⟨rfl, rfl⟩ | ⟨rfl, hframe, hQ⟩
  · exact ⟨fun _ _ => rfl, rfl⟩
  · exact ⟨hframe, hQ⟩

/-! ## `run_keygen` -/

/-- How `run_keygen` ends from the files `fs`. -/
structure KeygenEnds (C : Crates) (os : Os) (dir : String) (fs : Directory)
    (outcome : Except IssuerError KeygenReport × Directory) : Prop where
  ok : ∀ rep, outcome.1 = .ok rep → ∃ sk : BytesN 32,
    content outcome.2 ⟨dir, signingKeyFile⟩ = some sk.val ∧
    content outcome.2 ⟨dir, pubkeyFile⟩ = some (C.verifyingKey sk).val ∧
    rep.pubkeyHashHex = hexText (C.sha256 (C.verifyingKey sk).val).val
  error : ∀ e, outcome.1 = .error e →
    (∀ q, q ≠ ⟨dir, signingKeyFile⟩ → outcome.2 q = fs q) ∧
    if e.tearsKeyPair dir then content outcome.2 ⟨dir, signingKeyFile⟩ = some os.random.val
    else outcome.2 ⟨dir, signingKeyFile⟩ = fs ⟨dir, signingKeyFile⟩
  frame : ∀ q, q ≠ ⟨dir, signingKeyFile⟩ → q ≠ ⟨dir, pubkeyFile⟩ → outcome.2 q = fs q

theorem runKeygen_eq_ok {rep : KeygenReport} (h : (runKeygen C os dir).exec fs = (.ok rep, fs')) :
    content fs' ⟨dir, signingKeyFile⟩ = some os.random.val ∧
      content fs' ⟨dir, pubkeyFile⟩ = some (C.verifyingKey os.random).val ∧
      rep = ⟨hexText (C.verifyingKey os.random).val,
        hexText (C.sha256 (C.verifyingKey os.random).val).val⟩ ∧
      ∀ q, q ≠ ⟨dir, signingKeyFile⟩ → q ≠ ⟨dir, pubkeyFile⟩ → fs' q = fs q := by
  unfold runKeygen at h
  simp only [Txn.exec_bind_eq_ok, Txn.exec_pure, Prod.mk.injEq] at h
  obtain ⟨⟨⟩, fs₁, hsk, ⟨⟩, fs₂, hmode, ⟨⟩, fs₃, hpk, hrep, rfl⟩ := h
  obtain ⟨-, hsk, hsk_frame⟩ := writeFile_eq_ok hsk
  obtain ⟨hmode, hmode_frame⟩ := restrictPermissions_eq_ok hmode
  obtain ⟨-, hpk, hpk_frame⟩ := writeFile_eq_ok hpk
  refine ⟨?_, hpk, (Except.ok.inj hrep).symm, fun q hq hq' => ?_⟩
  · rw [content_of_eq (hpk_frame _ (signingKey_path_ne dir).1), hmode, hsk]
  · rw [hpk_frame q hq', hmode_frame q hq, hsk_frame q hq]

theorem runKeygen_eq_error {e : IssuerError}
    (h : (runKeygen C os dir).exec fs = (.error e, fs')) :
    (fs' = fs ∧ e.tearsKeyPair dir = false) ∨
      (e.tearsKeyPair dir = true ∧ (∀ q, q ≠ ⟨dir, signingKeyFile⟩ → fs' q = fs q) ∧
        content fs' ⟨dir, signingKeyFile⟩ = some os.random.val) := by
  unfold runKeygen at h
  rcases Txn.exec_bind_eq_error.mp h with h | ⟨⟨⟩, fs₁, hsk, h⟩
  · obtain ⟨rfl, io, rfl⟩ := writeFile_eq_error h
    exact .inl ⟨rfl, by simp [IssuerError.tearsKeyPair, signingKeyFile, pubkeyFile]⟩
  obtain ⟨-, hsk, hsk_frame⟩ := writeFile_eq_ok hsk
  rcases Txn.exec_bind_eq_error.mp h with h | ⟨⟨⟩, fs₂, hmode, h⟩
  · obtain ⟨rfl, io, rfl⟩ := restrictPermissions_eq_error h
    exact .inr ⟨by simp [IssuerError.tearsKeyPair], hsk_frame, hsk⟩
  obtain ⟨hmode, hmode_frame⟩ := restrictPermissions_eq_ok hmode
  rcases Txn.exec_bind_eq_error.mp h with h | ⟨⟨⟩, fs₃, -, h⟩
  · obtain ⟨rfl, io, rfl⟩ := writeFile_eq_error h
    refine .inr ⟨by simp [IssuerError.tearsKeyPair], fun q hq => ?_, (hmode _).trans hsk⟩
    rw [hmode_frame q hq, hsk_frame q hq]
  · cases h

theorem keygenEnds (C : Crates) (os : Os) (dir : String) (fs : Directory) :
    KeygenEnds C os dir fs ((runKeygen C os dir).exec fs) := by
  obtain ⟨r, fs', h⟩ : ∃ r fs', (runKeygen C os dir).exec fs = (r, fs') := ⟨_, _, rfl⟩
  rw [h]
  cases r with
  | ok rep =>
      obtain ⟨hsk, hpk, hrep, hframe⟩ := runKeygen_eq_ok h
      refine ⟨fun rep' hr => ⟨os.random, hsk, hpk, ?_⟩, nofun, hframe⟩
      cases hr
      rw [hrep]
  | error e =>
      obtain ⟨hframe, hfirst⟩ := files_of_error (runKeygen_eq_error h)
      refine ⟨nofun, fun e' he => ?_, fun q hq _ => hframe q hq⟩
      cases he
      exact ⟨hframe, hfirst⟩

/-! ## `run_sign` -/

/-- How `run_sign` ends from the files `fs`. -/
structure SignEnds (C : Crates) (os : Os) (dir subjectId issuer : String) (incomesRaw : List String)
    (issuedAt : Option UInt64) (fs : Directory)
    (outcome : Except IssuerError SignReport × Directory) : Prop where
  ok : ∀ rep, outcome.1 = .ok rep → ∃ (sk : BytesN 32) (message : Bytes),
    content outcome.2 ⟨dir, signingKeyFile⟩ = some sk.val ∧
    content outcome.2 ⟨dir, statementFile⟩ = some message ∧
    content outcome.2 ⟨dir, signatureFile⟩ = some (C.sign sk message).val
  error : ∀ e, outcome.1 = .error e →
    (∀ q, q ≠ ⟨dir, statementFile⟩ → outcome.2 q = fs q) ∧
    if e.tearsSignedPair dir then ∃ incomes message, parseIncomes incomesRaw = .ok incomes ∧
      C.toVec (buildStatement subjectId issuer incomes (issuedAt.getD (currentUnixTime os))) =
        .ok message ∧
      content outcome.2 ⟨dir, statementFile⟩ = some message
    else outcome.2 ⟨dir, statementFile⟩ = fs ⟨dir, statementFile⟩
  frame : ∀ q, q ≠ ⟨dir, statementFile⟩ → q ≠ ⟨dir, signatureFile⟩ → outcome.2 q = fs q

section
variable {subjectId issuer : String} {incomesRaw : List String} {issuedAt : Option UInt64}

theorem parseIncomes_eq_error {e : IssuerError} (h : parseIncomes incomesRaw = .error e) :
    e.tearsSignedPair dir = false := by
  unfold parseIncomes at h
  split at h
  · cases h
    rfl
  · obtain ⟨s, -, hs⟩ := mapM_eq_error h
    obtain ⟨source, -, rfl⟩ := mapError_eq_error hs
    rfl

theorem signingKey_eq_error {path : Path} {b : Bytes} {e : IssuerError}
    (h : signingKey path b = .error e) : e.tearsSignedPair dir = false := by
  unfold signingKey at h
  split at h
  · cases h
  · cases h
    rfl

theorem runSign_eq_error {e : IssuerError}
    (h : (runSign C os dir subjectId issuer incomesRaw issuedAt).exec fs = (.error e, fs')) :
    (fs' = fs ∧ e.tearsSignedPair dir = false) ∨
      (e.tearsSignedPair dir = true ∧ (∀ q, q ≠ ⟨dir, statementFile⟩ → fs' q = fs q) ∧
        ∃ incomes message, parseIncomes incomesRaw = .ok incomes ∧
          C.toVec (buildStatement subjectId issuer incomes (issuedAt.getD (currentUnixTime os))) =
            .ok message ∧
          content fs' ⟨dir, statementFile⟩ = some message) := by
  unfold runSign at h
  rcases Txn.exec_bind_eq_error.mp h with hin' | ⟨incomes, fs₁, hin', h₁⟩
  · obtain ⟨hin, rfl⟩ := Txn.exec_ofExcept_eq.mp hin'
    exact .inl ⟨rfl, parseIncomes_eq_error hin⟩
  obtain ⟨hin, rfl⟩ := Txn.exec_ofExcept_eq.mp hin'
  rcases Txn.exec_bind_eq_error.mp h₁ with hread | ⟨skBytes, fs₂, hread, h₂⟩
  · obtain ⟨rfl, io, rfl⟩ := readFile_eq_error hread
    exact .inl ⟨rfl, rfl⟩
  obtain ⟨-, -, rfl⟩ := readFile_eq_ok.mp hread
  rcases Txn.exec_bind_eq_error.mp h₂ with hsk' | ⟨sk, fs₃, hsk', h₃⟩
  · obtain ⟨hsk, rfl⟩ := Txn.exec_ofExcept_eq.mp hsk'
    exact .inl ⟨rfl, signingKey_eq_error hsk⟩
  obtain ⟨-, rfl⟩ := Txn.exec_ofExcept_eq.mp hsk'
  rcases Txn.exec_bind_eq_error.mp h₃ with hser' | ⟨message, fs₄, hser', h₄⟩
  · obtain ⟨hser, rfl⟩ := Txn.exec_ofExcept_eq.mp hser'
    obtain ⟨source, -, rfl⟩ := mapError_eq_error hser
    exact .inl ⟨rfl, rfl⟩
  obtain ⟨hser, rfl⟩ := Txn.exec_ofExcept_eq.mp hser'
  rcases Txn.exec_bind_eq_error.mp h₄ with hst | ⟨⟨⟩, fs₅, hst, h₅⟩
  · obtain ⟨rfl, io, rfl⟩ := writeFile_eq_error hst
    exact .inl ⟨rfl, by simp [IssuerError.tearsSignedPair, statementFile, signatureFile]⟩
  obtain ⟨-, hst, hst_frame⟩ := writeFile_eq_ok hst
  rcases Txn.exec_bind_eq_error.mp h₅ with hsig | ⟨⟨⟩, fs₆, -, h₆⟩
  · obtain ⟨rfl, io, rfl⟩ := writeFile_eq_error hsig
    exact .inr ⟨by simp [IssuerError.tearsSignedPair], hst_frame, incomes, message, hin,
      mapError_eq_ok.mp hser, hst⟩
  · cases h₆

end

theorem signEnds (C : Crates) (os : Os) (dir subjectId issuer : String) (incomesRaw : List String)
    (issuedAt : Option UInt64) (fs : Directory) :
    SignEnds C os dir subjectId issuer incomesRaw issuedAt fs
      ((runSign C os dir subjectId issuer incomesRaw issuedAt).exec fs) := by
  obtain ⟨r, fs', h⟩ : ∃ r fs', (runSign C os dir subjectId issuer incomesRaw issuedAt).exec fs =
    (r, fs') := ⟨_, _, rfl⟩
  rw [h]
  cases r with
  | ok rep =>
      obtain ⟨incomes, sk, message, -, hs⟩ := Signed.of_runSign h
      obtain ⟨-, hst, hsig⟩ := signingKey_path_ne dir
      have hkey := (content_of_eq (hs.frame _ hst hsig)).trans hs.key
      exact ⟨fun _ _ => ⟨sk, message, hkey, hs.statement, hs.signature⟩, nofun, hs.frame⟩
  | error e =>
      obtain ⟨hframe, hfirst⟩ := files_of_error (runSign_eq_error h)
      refine ⟨nofun, fun e' he => ?_, fun q hq _ => hframe q hq⟩
      cases he
      exact ⟨hframe, hfirst⟩

/-! ## One command -/

theorem KeyPair.of_eq (h : KeyPair C dir fs)
    (hsk : fs' ⟨dir, signingKeyFile⟩ = fs ⟨dir, signingKeyFile⟩)
    (hpk : fs' ⟨dir, pubkeyFile⟩ = fs ⟨dir, pubkeyFile⟩) : KeyPair C dir fs' := by
  obtain ⟨sk, hk, hp⟩ := h
  exact ⟨sk, (content_of_eq hsk).trans hk, (content_of_eq hpk).trans hp⟩

theorem SignedPair.of_eq (h : SignedPair C dir fs)
    (hst : fs' ⟨dir, statementFile⟩ = fs ⟨dir, statementFile⟩)
    (hsig : fs' ⟨dir, signatureFile⟩ = fs ⟨dir, signatureFile⟩) : SignedPair C dir fs' := by
  obtain ⟨sk, message, hm, hs⟩ := h
  exact ⟨sk, message, (content_of_eq hst).trans hm, (content_of_eq hsig).trans hs⟩

theorem keyPair_step {c : Call} (h : KeyPair C dir fs)
    (hc : ∀ e, (step C dir fs c).1 = some e → e.tearsKeyPair dir = false) :
    KeyPair C dir (step C dir fs c).2 := by
  obtain ⟨os, operation⟩ := c
  cases operation with
  | keygen =>
      have hends := keygenEnds C os dir fs
      simp only [step] at hc ⊢
      cases hr : ((runKeygen C os dir).exec fs).1 with
      | ok rep =>
          obtain ⟨sk, hsk, hpk, -⟩ := hends.ok rep hr
          exact ⟨sk, hsk, hpk⟩
      | error e =>
          obtain ⟨hframe, hsk⟩ := hends.error e hr
          rw [hc e (by rw [hr]; rfl)] at hsk
          exact h.of_eq hsk (hframe _ (signingKey_path_ne dir).1.symm)
  | sign subjectId issuer incomesRaw issuedAt =>
      have hframe := (signEnds C os dir subjectId issuer incomesRaw issuedAt fs).frame
      obtain ⟨-, hst, hsig⟩ := signingKey_path_ne dir
      exact h.of_eq (hframe _ hst hsig) (hframe _ (pubkey_path_ne dir).1 (pubkey_path_ne dir).2)

theorem signedPair_step {c : Call} (h : SignedPair C dir fs)
    (hc : ∀ e, (step C dir fs c).1 = some e → e.tearsSignedPair dir = false) :
    SignedPair C dir (step C dir fs c).2 := by
  obtain ⟨os, operation⟩ := c
  cases operation with
  | keygen =>
      have hframe := (keygenEnds C os dir fs).frame
      obtain ⟨-, hst, hsig⟩ := signingKey_path_ne dir
      exact h.of_eq (hframe _ hst.symm (pubkey_path_ne dir).1.symm)
        (hframe _ hsig.symm (pubkey_path_ne dir).2.symm)
  | sign subjectId issuer incomesRaw issuedAt =>
      have hends := signEnds C os dir subjectId issuer incomesRaw issuedAt fs
      simp only [step] at hc ⊢
      cases hr : ((runSign C os dir subjectId issuer incomesRaw issuedAt).exec fs).1 with
      | ok rep =>
          obtain ⟨sk, message, -, hm, hs⟩ := hends.ok rep hr
          exact ⟨sk, message, hm, hs⟩
      | error e =>
          obtain ⟨hframe, hst⟩ := hends.error e hr
          rw [hc e (by rw [hr]; rfl)] at hst
          exact h.of_eq hst (hframe _ (statement_path_ne dir).symm)

end ZkUnderwrite.Issuer
