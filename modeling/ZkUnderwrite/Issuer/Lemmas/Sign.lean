import ZkUnderwrite.Issuer.Sign

/-!
# What a command has done

What a command that reports success has read, written and left unchanged, and where one that reports an
error has stopped.
-/

namespace ZkUnderwrite.Issuer
open ByteString Serde Transaction FileSystem

variable {C : Crates} {os : Os} {path : Path} {b : Bytes} {fs fs' : Directory}

theorem readFile_eq_ok : (readFile os path).exec fs = (.ok b, fs') ↔
    os.disk.readFault path = none ∧ content fs path = some b ∧ fs' = fs :=
  Txn.exec_mapError_eq_ok.trans read_eq_ok

theorem writeFile_eq_ok (h : (writeFile os path b).exec fs = (.ok (), fs')) :
    os.disk.writeFault path = none ∧ content fs' path = some b ∧ ∀ q, q ≠ path → fs' q = fs q :=
  write_eq_ok (Txn.exec_mapError_eq_ok.mp h)

theorem readFile_eq_error {e : IssuerError} (h : (readFile os path).exec fs = (.error e, fs')) :
    fs' = fs ∧ ∃ io, e = .readFile path io := by
  obtain ⟨io, hr, he⟩ := Txn.exec_mapError_eq_error h
  exact ⟨read_eq_error hr, io, he⟩

theorem writeFile_eq_error {e : IssuerError} (h : (writeFile os path b).exec fs = (.error e, fs')) :
    fs' = fs ∧ ∃ io, e = .writeFile path io := by
  obtain ⟨io, hw, he⟩ := Txn.exec_mapError_eq_error h
  exact ⟨(write_eq_error hw).2, io, he⟩

theorem restrictPermissions_eq_ok (h : (restrictPermissions os path).exec fs = (.ok (), fs')) :
    (∀ q, content fs' q = content fs q) ∧ ∀ q, q ≠ path → fs' q = fs q := by
  unfold restrictPermissions at h
  split at h
  · have h := Txn.exec_mapError_eq_ok.mp h
    rcases setMode_cases os.disk path 0o600 fs with ⟨e, he⟩ | ⟨f, hf, hok⟩
    · cases he.symm.trans h
    · cases hok.symm.trans h
      refine ⟨fun q => ?_, fun q hq => Function.update_of_ne hq _ _⟩
      rw [content_put]
      split
      · subst_vars
        simp [content, hf]
      · rfl
  · cases h
    exact ⟨fun _ => rfl, fun _ _ => rfl⟩

theorem restrictPermissions_eq_error {e : IssuerError}
    (h : (restrictPermissions os path).exec fs = (.error e, fs')) :
    fs' = fs ∧ ∃ io, e = .setPermissions path io := by
  unfold restrictPermissions at h
  split at h
  · obtain ⟨io, hm, he⟩ := Txn.exec_mapError_eq_error h
    rcases setMode_cases os.disk path 0o600 fs with ⟨e', he'⟩ | ⟨f, -, hok⟩
    · cases he'.symm.trans hm
      exact ⟨rfl, io, he⟩
    · cases hok.symm.trans hm
  · cases h

theorem signingKey_path_ne (dir : String) :
    (⟨dir, signingKeyFile⟩ : Path) ≠ ⟨dir, pubkeyFile⟩ ∧
      (⟨dir, signingKeyFile⟩ : Path) ≠ ⟨dir, statementFile⟩ ∧
      (⟨dir, signingKeyFile⟩ : Path) ≠ ⟨dir, signatureFile⟩ := by
  simp [signingKeyFile, pubkeyFile, statementFile, signatureFile]

theorem pubkey_path_ne (dir : String) :
    (⟨dir, pubkeyFile⟩ : Path) ≠ ⟨dir, statementFile⟩ ∧
      (⟨dir, pubkeyFile⟩ : Path) ≠ ⟨dir, signatureFile⟩ := by
  simp [pubkeyFile, statementFile, signatureFile]

theorem statement_path_ne (dir : String) :
    (⟨dir, statementFile⟩ : Path) ≠ ⟨dir, signatureFile⟩ := by
  simp [statementFile, signatureFile]

theorem content_of_eq {p : Path} (h : fs' p = fs p) : content fs' p = content fs p :=
  congrArg (Option.map File.content) h

theorem signingKey_eq_ok {sk : BytesN 32} : signingKey path b = .ok sk ↔ b = sk.val := by
  unfold signingKey
  rw [← BytesN.ofBytes_eq_some]
  cases BytesN.ofBytes 32 b <;> simp

/-- What `run_sign` has read and written when it succeeds with the key `sk` and the statement bytes
`message`. -/
structure Signed (C : Crates) (os : Os) (dir subjectId issuer : String) (incomesRaw : List String)
    (issuedAt : Option UInt64) (fs fs' : Directory) (incomes : List UInt64) (sk : BytesN 32)
    (message : Bytes) : Prop where
  incomes_eq : parseIncomes incomesRaw = .ok incomes
  key : content fs ⟨dir, signingKeyFile⟩ = some sk.val
  serialized : C.toVec (buildStatement subjectId issuer incomes
    (issuedAt.getD (currentUnixTime os))) = .ok message
  statement : content fs' ⟨dir, statementFile⟩ = some message
  signature : content fs' ⟨dir, signatureFile⟩ = some (C.sign sk message).val
  frame : ∀ q, q ≠ ⟨dir, statementFile⟩ → q ≠ ⟨dir, signatureFile⟩ → fs' q = fs q

theorem Signed.of_runSign {dir subjectId issuer : String} {incomesRaw : List String}
    {issuedAt : Option UInt64} {rep : SignReport}
    (h : (runSign C os dir subjectId issuer incomesRaw issuedAt).exec fs = (.ok rep, fs')) :
    ∃ incomes sk message, rep = ⟨message.length⟩ ∧
      Signed C os dir subjectId issuer incomesRaw issuedAt fs fs' incomes sk message := by
  unfold runSign at h
  simp only [Txn.exec_bind_eq_ok, Txn.exec_ofExcept, Prod.mk.injEq, Txn.exec_pure,
    readFile_eq_ok, signingKey_eq_ok, serializeStatement, mapError_eq_ok] at h
  obtain ⟨incomes, _, ⟨hin, rfl⟩, skBytes, _, ⟨-, hkey, rfl⟩, sk, _, ⟨rfl, rfl⟩, message, _,
    ⟨hser, rfl⟩, ⟨⟩, fs₁, hst, ⟨⟩, fs₂, hsig, hrep, rfl⟩ := h
  obtain ⟨-, hst, hst_frame⟩ := writeFile_eq_ok hst
  obtain ⟨-, hsig, hsig_frame⟩ := writeFile_eq_ok hsig
  refine ⟨incomes, sk, message, (Except.ok.inj hrep).symm, hin, hkey, hser, ?_, hsig, ?_⟩
  · exact (content_of_eq (hsig_frame _ (statement_path_ne dir))).trans hst
  · exact fun q hq hq' => (hsig_frame q hq').trans (hst_frame q hq)

end ZkUnderwrite.Issuer
