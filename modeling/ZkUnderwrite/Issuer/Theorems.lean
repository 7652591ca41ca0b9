import ZkUnderwrite.Guest.Lemmas.Main
import ZkUnderwrite.Issuer.Lemmas.Calls

/-!
# Theorems about the issuer's commands

What the guest makes of the files that the issuer writes, and what a command that fails leaves of them.
-/

namespace ZkUnderwrite.Issuer
open ByteString Serde Transaction FileSystem

/-! ## Statements that the issuer signs -/

/-- The crates on both sides agree: a document is read back as it was written, and what a key signs
verifies under its public key. -/
structure Agree (C : Crates) (G : Guest.Crates) : Prop where
  parseJson : ∀ st b, C.toVec st = .ok b → G.parseJson b = some st.toJson
  validKey : ∀ sk, G.validKey (C.verifyingKey sk) = true
  verify : ∀ sk m, G.verify (C.verifyingKey sk) m (C.sign sk m) = true

/-- The guest's document has a field that the issuer does not write. -/
theorem fromJson_toJson (st : Statement) : Guest.Statement.fromJson st.toJson = none := by
  have hperiod : st.toJson.fields Guest.statementFields = none :=
    Json.fields_eq_none (show "period" ∈ Guest.statementFields by decide) (by simp)
  unfold Guest.Statement.fromJson
  rw [hperiod]
  rfl

/-- The guest can prove the statement `message`: its checks pass, it reads what the issuer was given,
and it commits a journal. -/
structure Provable (G : Guest.Crates) (subjectId issuer : String) (incomes : List UInt64)
    (inp : Guest.Input) : Prop where
  verified : ∃ pk sig, inp.issuerPubkeyBytes = pk.val ∧ inp.signatureBytes = sig.val ∧
    G.validKey pk = true ∧ G.verify pk inp.statementBytes sig = true
  deserialised : ∃ st, G.fromSlice inp.statementBytes = some st ∧ st.subjectId.val = subjectId ∧
    st.issuer.val = issuer ∧ st.monthlyNetIncome = incomes ∧ st.periodMonths.toNat = incomes.length
  committed : ∃ j, Guest.main G inp = .ok j

/-! ### A sample -/

namespace Sample

def secretKey : BytesN 32 := .ofNat 32
  0x9d61b19deffd5a60ba844af492ec2cc44449c5697b326919703bac031cae7f60
def publicKey : BytesN 32 := .ofNat 32
  0xd75a980182b10ab7d54bfed3c964073a0ee172f3daa62325af021a68f707511a
def keyHash : BytesN 32 := .ofNat 32
  0x21fe31dfa154a261626bf854046fd2271b7bed4b6abe45aa58877ef47f9721b9

def statement : Statement :=
  buildStatement "acct_4f9c2a17" "bank-of-stellar" [4200, 4250, 4180] 1750550400

/-- The bytes that the library's test of the wire format expects. -/
@[irreducible] def message : Bytes := asBytes
  ("\x7b\"schema\":\"zku.income.v1\",\"subject_id\":\"acct_4f9c2a17\",\"issuer\":\"bank-of-stellar\"," ++
    "\"currency\":\"USD\",\"issued_at\":1750550400,\"period_months\":3," ++
    "\"monthly_net_income\":[4200,4250,4180]\x7d")

def signature : BytesN 64 := .ofNat 64
  0x9c0fa605064692fdd04c32b5dea19ac8b98e6bbce16ed007c0ff11ac494612dbe2d70d61b11f1a5b09bd54e79217af6466d619199ee9f1a9a0a4ad1531adfe07

def sha256 (b : Bytes) : BytesN 32 := if b = publicKey.val then keyHash else .replicate 32 0

def crates : Crates where
  sha256 := sha256
  verifyingKey sk := if sk = secretKey then publicKey else .replicate 32 0
  sign sk m := if sk = secretKey ∧ m = message then signature else .replicate 64 0
  toVec st := if st = statement then .ok message else .error ⟨"not in the sample"⟩

def guestCrates : Guest.Crates where
  sha256 := sha256
  validKey pk := pk = publicKey || pk = .replicate 32 0
  verify pk m sig := sig = if pk = publicKey ∧ m = message then signature else .replicate 64 0
  parseJson b := if b = message then some statement.toJson else none

theorem agree : Agree crates guestCrates where
  parseJson st b h := by
    simp only [crates] at h
    split at h
    · cases h
      simp_all [guestCrates]
    · cases h
  validKey sk := by
    by_cases hsk : sk = secretKey <;> simp [crates, guestCrates, hsk]
  verify sk m := by
    have hne : BytesN.replicate 32 0 ≠ publicKey := by decide +kernel
    by_cases hsk : sk = secretKey <;> simp [crates, guestCrates, hsk, hne]

def os : Os where
  disk := ⟨fun _ => none, fun _ => none, fun _ => none, .notFound, 0o644⟩
  unix := true
  now := 1750550400
  random := secretKey

def directory : Directory :=
  put (put (fun _ => none) ⟨".", signingKeyFile⟩ ⟨secretKey.val, 0o600⟩) ⟨".", pubkeyFile⟩
    ⟨publicKey.val, 0o644⟩

/-- `zku-issuer sign acct_4f9c2a17 bank-of-stellar 4200 4250 4180`. -/
def sign : Except IssuerError SignReport × Directory :=
  (runSign crates os "." "acct_4f9c2a17" "bank-of-stellar" ["4200", "4250", "4180"] none).exec
    directory

def input (threshold : UInt64) : Guest.Input := ⟨message, signature.val, publicKey.val, threshold⟩

end Sample

/-- The statement of the library's own test is signed and verifies, and the guest aborts on it. -/
theorem sample_statement_unprovable :
    Agree Sample.crates Sample.guestCrates ∧
      parseIncomes ["4200", "4250", "4180"] = .ok [4200, 4250, 4180] ∧
      Sample.sign.1 = .ok ⟨Sample.message.length⟩ ∧
      content Sample.sign.2 ⟨".", signingKeyFile⟩ = some Sample.secretKey.val ∧
      Sample.crates.verifyingKey Sample.secretKey = Sample.publicKey ∧
      content Sample.sign.2 ⟨".", statementFile⟩ = some (Sample.input 4000).statementBytes ∧
      content Sample.sign.2 ⟨".", signatureFile⟩ = some (Sample.input 4000).signatureBytes ∧
      Guest.main Sample.guestCrates (Sample.input 4000) = .error .malformedStatement ∧
      ¬ Provable Sample.guestCrates "acct_4f9c2a17" "bank-of-stellar" [4200, 4250, 4180]
        (Sample.input 4000) := by
  have hmain : Guest.main Sample.guestCrates (Sample.input 4000) = .error .malformedStatement := by
    decide +kernel
  refine ⟨Sample.agree, by decide +kernel, by decide +kernel, by decide +kernel, by decide +kernel,
    by decide +kernel, by decide +kernel, hmain, ?_⟩
  rintro ⟨-, -, j, hj⟩
  rw [hmain] at hj
  cases hj

/-- The files `fs` hold a statement signed with the key in them, and the guest aborts on it because
the field `period` is missing, whatever the threshold. -/
def Unprovable (C : Crates) (G : Guest.Crates) (dir subjectId issuer : String)
    (incomesRaw : List String) (fs : Directory) : Prop :=
  ∃ incomes message, ∃ sk : BytesN 32, ∃ sig : BytesN 64,
    parseIncomes incomesRaw = .ok incomes ∧
    content fs ⟨dir, signingKeyFile⟩ = some sk.val ∧
    content fs ⟨dir, statementFile⟩ = some message ∧
    content fs ⟨dir, signatureFile⟩ = some sig.val ∧
    G.verify (C.verifyingKey sk) message sig = true ∧
    ∀ threshold,
      Guest.main G ⟨message, sig.val, (C.verifyingKey sk).val, threshold⟩ =
        .error .malformedStatement ∧
      ¬ Provable G subjectId issuer incomes ⟨message, sig.val, (C.verifyingKey sk).val, threshold⟩

/-- No statement that the issuer signs can be proved. -/
theorem signed_statement_unprovable (C : Crates) (G : Guest.Crates) (hagree : Agree C G) (os : Os)
    (dir subjectId issuer : String) (incomesRaw : List String) (issuedAt : Option UInt64)
    (fs fs' : Directory) (rep : SignReport)
    (hsign : (runSign C os dir subjectId issuer incomesRaw issuedAt).exec fs = (.ok rep, fs')) :
    Unprovable C G dir subjectId issuer incomesRaw fs' := by
  obtain ⟨incomes, sk, message, -, hs⟩ := Signed.of_runSign hsign
  obtain ⟨-, hst, hsig⟩ := signingKey_path_ne dir
  have hkey := (content_of_eq (hs.frame _ hst hsig)).trans hs.key
  have hnone : G.fromSlice message = none := by
    unfold Guest.Crates.fromSlice
    rw [hagree.parseJson _ _ hs.serialized]
    exact fromJson_toJson _
  refine ⟨incomes, message, sk, _, hs.incomes_eq, hkey, hs.statement, hs.signature,
    hagree.verify sk message, fun t => ?_⟩
  refine ⟨Guest.main_of_fromSlice_none (hagree.validKey sk) (hagree.verify sk message) hnone, ?_⟩
  rintro ⟨-, ⟨st, hst, -⟩, -⟩
  rw [hnone] at hst
  cases hst

theorem signed_statement_unprovable_sample :
    Unprovable Sample.crates Sample.guestCrates "." "acct_4f9c2a17" "bank-of-stellar"
      ["4200", "4250", "4180"] Sample.sign.2 := by
  have hok : Sample.sign.1 = .ok ⟨Sample.message.length⟩ := by decide +kernel
  exact signed_statement_unprovable _ _ Sample.agree _ _ _ _ _ _ _ _ _ (Prod.ext hok rfl)

/-! ## Commands that fail -/

namespace Sample

def newSecretKey : BytesN 32 := .ofNat 32
  0x4ccd089b28ff96da9db6c346ec114e0f5b8a319f35aba624da8cf6ed4fb8a6fb
def newPublicKey : BytesN 32 := .ofNat 32
  0x3d4017c3e843895a92b70aa74d1b7ebc9c982ccf2ec4968cc0cd55f12af4660c

def newStatement : Statement :=
  buildStatement "acct_4f9c2a17" "bank-of-stellar" [5100, 5150, 5075] 1753228800

@[irreducible] def newMessage : Bytes := asBytes
  ("\x7b\"schema\":\"zku.income.v1\",\"subject_id\":\"acct_4f9c2a17\",\"issuer\":\"bank-of-stellar\"," ++
    "\"currency\":\"USD\",\"issued_at\":1753228800,\"period_months\":3," ++
    "\"monthly_net_income\":[5100,5150,5075]\x7d")

def newSignature : BytesN 64 := .ofNat 64
  0xcd99273096ab393029c7fd5e88c5664308cd72fb3189fe57e60f27b7fed61ea73eef65d5bb939b2813287824f8757370a2eb478687a7a1d3ff1808f24dc61f01

/-- The crates on two keys and two statements. -/
def twoCrates : Crates where
  sha256 := sha256
  verifyingKey sk := if sk = newSecretKey then newPublicKey else crates.verifyingKey sk
  sign sk m := if sk = secretKey ∧ m = newMessage then newSignature else crates.sign sk m
  toVec st := if st = newStatement then .ok newMessage else crates.toVec st

/-- Every write of the file `name` fails. -/
def fullAt (name : String) : Os :=
  { os with
    disk := { os.disk with
      writeFault := fun p => if p.name = name then some (.other "StorageFull") else none }
    now := 1753228800
    random := newSecretKey }

/-- The directory with a key pair and a signed statement. -/
def matched : Directory := sign.2

def tornSign : Except IssuerError SignReport × Directory :=
  (runSign twoCrates (fullAt signatureFile) "." "acct_4f9c2a17" "bank-of-stellar"
    ["5100", "5150", "5075"] none).exec matched

def tornKeygen : Except IssuerError KeygenReport × Directory :=
  (runKeygen twoCrates (fullAt pubkeyFile) ".").exec matched

end Sample

/-- A command that fails between its two writes leaves a pair that does not match: the signature of the
statement before, and the public key before. -/
theorem failed_commands_tear_pairs :
    KeyPair Sample.twoCrates "." Sample.matched ∧ SignedPair Sample.twoCrates "." Sample.matched ∧
      Sample.tornSign.1 = .error (.writeFile ⟨".", signatureFile⟩ (.other "StorageFull")) ∧
      Sample.tornSign.2 ⟨".", statementFile⟩ ≠ Sample.matched ⟨".", statementFile⟩ ∧
      content Sample.tornSign.2 ⟨".", statementFile⟩ = some Sample.newMessage ∧
      content Sample.tornSign.2 ⟨".", signatureFile⟩ ≠
        some (Sample.twoCrates.sign Sample.secretKey Sample.newMessage).val ∧
      Sample.tornKeygen.1 = .error (.writeFile ⟨".", pubkeyFile⟩ (.other "StorageFull")) ∧
      Sample.tornKeygen.2 ⟨".", signingKeyFile⟩ ≠ Sample.matched ⟨".", signingKeyFile⟩ ∧
      content Sample.tornKeygen.2 ⟨".", signingKeyFile⟩ = some Sample.newSecretKey.val ∧
      content Sample.tornKeygen.2 ⟨".", pubkeyFile⟩ ≠
        some (Sample.twoCrates.verifyingKey Sample.newSecretKey).val := by
  refine ⟨⟨Sample.secretKey, ?_⟩, ⟨Sample.secretKey, Sample.message, ?_⟩, ?_⟩
  all_goals decide +kernel

/-- What the commands leave of the two pairs of files in a directory, whatever fails. -/
structure PairsKept (C : Crates) (dir : String) : Prop where
  sign : ∀ os subjectId issuer incomesRaw issuedAt fs,
    SignEnds C os dir subjectId issuer incomesRaw issuedAt fs
      ((runSign C os dir subjectId issuer incomesRaw issuedAt).exec fs)
  keygen : ∀ os fs, KeygenEnds C os dir fs ((runKeygen C os dir).exec fs)
  signed_pair : ∀ fs cs, Machine.Admissible (step C dir)
      (fun fs c => ∀ e, (step C dir fs c).1 = some e → e.tearsSignedPair dir = false) fs cs →
    SignedPair C dir fs → SignedPair C dir (Machine.final (step C dir) fs cs)
  key_pair : ∀ fs cs, Machine.Admissible (step C dir)
      (fun fs c => ∀ e, (step C dir fs c).1 = some e → e.tearsKeyPair dir = false) fs cs →
    KeyPair C dir fs → KeyPair C dir (Machine.final (step C dir) fs cs)

/-- Only an error between the two writes of a command can tear the pair that it writes. -/
theorem commands_keep_pairs (C : Crates) (dir : String) : PairsKept C dir where
  sign os subjectId issuer incomesRaw issuedAt fs :=
    signEnds C os dir subjectId issuer incomesRaw issuedAt fs
  keygen os fs := keygenEnds C os dir fs
  signed_pair _ _ hok h :=
    Machine.history_invariant (J := fun _ fs => SignedPair C dir fs) h
      (fun _ _ _ h hc => signedPair_step h hc) hok
  key_pair _ _ hok h :=
    Machine.history_invariant (J := fun _ fs => KeyPair C dir fs) h
      (fun _ _ _ h hc => keyPair_step h hc) hok

end ZkUnderwrite.Issuer
