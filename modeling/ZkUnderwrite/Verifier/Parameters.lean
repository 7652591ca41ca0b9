import ZkUnderwrite.Verifier.Lemmas.Build

/-!
# The parameters of the Groth16 verifier

The digest from which the selector is taken binds the whole file of parameters, and the contract that
the build makes checks the equation of the file's points for the file's roots.
-/

namespace ZkUnderwrite.Verifier.Build
open ByteString

/-! ## The selector -/

/-- The strings hashed for the digest of a file, apart from the tags. -/
def VerifierParameters.hashed (A : Ark) (sha256 : Bytes → BytesN 32) (params : VerifierParameters) :
    List Bytes :=
  ((params.contents A).map (Contents.hashed sha256)).getD []

/-- Files with the same digest build the same contract, up to its version. -/
theorem parameters_digest_binds {A : Ark} {sha256 : Bytes → BytesN 32}
    {params params' : VerifierParameters} {g g' : Generated}
    (hg : main A sha256 params = some g) (hg' : main A sha256 params' = some g')
    (hcol : Set.InjOn sha256 {x | x ∈ params.hashed A sha256 ++ params'.hashed A sha256}) :
    params.digest A sha256 = params'.digest A sha256 ↔
      { g with versionCode := g'.versionCode } = g' := by
  rw [main_eq, Option.map_eq_some_iff] at hg hg'
  obtain ⟨c, hc, rfl⟩ := hg
  obtain ⟨c', hc', rfl⟩ := hg'
  have hhashed : params.hashed A sha256 = c.hashed sha256 := by rw [VerifierParameters.hashed, hc]; rfl
  have hhashed' : params'.hashed A sha256 = c'.hashed sha256 := by
    rw [VerifierParameters.hashed, hc']; rfl
  rw [hhashed, hhashed'] at hcol
  rw [digest_eq hc, digest_eq hc', Option.some.injEq]
  refine Iff.trans ?_ Contents.same_iff_generated.symm
  constructor
  · intro h
    exact Contents.same_of_digest hcol (fun x hx => List.mem_append_left _ hx)
      (fun x hx => List.mem_append_right _ hx) h
  · rintro ⟨hroot, hid, hvk⟩
    simp only [Contents.digest, Contents.input, Contents.vkInput, Contents.icDigest, hroot, hid, hvk]

namespace Sample

/-- The file in the repository. -/
def parameters : VerifierParameters where
  version := "3.0.0"
  controlRoot := "a54dc85ac99f851c92d7c96d7318af41dbe7c0194edfcc37eb4d422a998c1f56"
  bn254ControlId := "04446e66d300eb7fb45c9726bb53c793dda407a62e9601618bb43c5c14657ac0"
  verificationKey :=
    { alpha :=
        ⟨"20491192805390485299153009773594534940189261866228447918068658471970481763042",
         "9383485363053290200918347156157836566562967994039712273449902621266178545958"⟩
      beta :=
        ⟨"4252822878758300859123897981450591353533073413197771768651442665752259397132",
         "6375614351688725206403948262868962793625744043794305715222011528459656738731",
         "21847035105528745403288232691147584728191162732299865338377159692350059136679",
         "10505242626370262277552901082094356697409835680220590971873171140371331206856"⟩
      gamma :=
        ⟨"11559732032986387107991004021392285783925812861821192530917403151452391805634",
         "10857046999023057135944570762232829481370756359578518086990519993285655852781",
         "4082367875863433681332203403145435568316851327593401208105741076214120093531",
         "8495653923123431417604973247489272438418190587263600148770280649306958101930"⟩
      delta :=
        ⟨"1668323501672964604911431804142266013250380587483576094566949227275849579036",
         "12043754404802191763554326994664886008979042643626290185762540825416902247219",
         "7710631539206257456743780535472368339139328733484942210876916214502466455394",
         "13740680757317479711909903993315946540841369848973133181051452051592786724563"⟩
      ic :=
        [⟨"8446592859352799428420270221449902464741693648963397251242447530457567083492",
          "1064796367193003797175961162477173481551615790032213185848276823815288302804"⟩,
         ⟨"3179835575189816632597428042194253779818690147323192973511715175294048485951",
          "20895841676865356752879376687052266198216014795822152491318012491767775979074"⟩,
         ⟨"5332723250224941161709478398807683311971555792614491788690328996478511465287",
          "21199491073419440416471372042641226693637837098357067793586556692319371762571"⟩,
         ⟨"12457994489566736295787256452575216703923664299075106359829199968023158780583",
          "19706766271952591897761291684837117091856807401404423804318744964752784280790"⟩,
         ⟨"19617808913178163826953378459323299110911217259216006187355745713323154132237",
          "21663537384585072695701846972542344484111393047775983928357046779215877070466"⟩,
         ⟨"6834578911681792552110317589222010969491336870276623105249474534788043166867",
          "15060583660288623605191393599883223885678013570733629274538391874953353488393"⟩] }

/-- Digests of the strings hashed for this file, which their last eight bytes tell apart. -/
def digests : List (Nat × Nat) :=
  [(0xf076caff004d1926, 0x2298cec17c15c841adbbf8cc6d7e081c861370f45abaaf4129e6d61da0dc90b1),
   (0xd57f06547ad0cec8, 0xa2f548430941c9296e3ba3bf440c0b1cc2f874864f7e41707725682236b77470),
   (0x4ce6cc0166fa7daa, 0xa0de5dc137b285f0d15790d0e0007a26331cafe00d29bdaa0e7e9afa276847aa),
   (0x7142df187d3fc6d3, 0xfb875534fd979f0e4a19693f6281a6a1c7079272b38a50541129234003c035a6),
   (0x2b23c60ee980acd4, 0x1cbeac7cb8d2fac8051651022d2e04174e8412f25dadd52b81453f1794f29c84),
   (0x82a4650787ff6642, 0xb8a9c5e594a6815546fba67ea41bc84dfacd88ce9cce09c5cc83027161f453af),
   (0x09c153b1fcdf9b8b, 0x4b770f6234b0842dcb437ad35692e05576a9c67f4955552d6a16fd4e9ae421f1),
   (0x3e9cf04f679cccd6, 0xaf5fe24ca85c070afb433eb954a0ae0d8d305914d3519fd8155af0c83832a4b2),
   (0xc5e71665b2ad5e82, 0x93335b9e02e32231be09d3a72bd01d1b0ca02e192ebf05bec1008959bb1b1634),
   (0x87aa01bd0b69e809, 0x23507fe4ecce8efc902604ea7fa4aff88c13537f07aed7525b572195f4fa8aea),
   (0x6e674b65792e4943, 0xf776d186bf72b819a595ab1833062ab4bb3592160c10857ebeca9691ce729f22),
   (0x0000000000000200, 0x6991d2156eb78af12e3e25bfd673e35ea2e9d54bb645837a07ac57d805d2fa58),
   (0x57d805d2fa580200, 0x3747e49de54377ce9abbc014ecd7ec4ca788afec8da840eb6ef0176619d0a40e),
   (0x176619d0a40e0200, 0xf8114d4632ef201dfb01a62d81ccc0e1953e40332de675f240e0dbdacf97d457),
   (0xdbdacf97d4570200, 0xe9e614c65e73f622bc09ca944bf1ab2668f6bbe04076203d5b1915d5b3224833),
   (0x15d5b32248330200, 0x9d01ae8a6175af517297a259ee5064b66ee915ec87bb109e91d8385c6f225d7c),
   (0x385c6f225d7c0200, 0x232e4c620f567460a68696b693b7744030eac5ecb46ca403d5f69a3eb6e59783),
   (0x6679696e674b6579, 0xfa77044bc9f1aec494a3f424cb9104c24149acf58ca6b219b44bd6b1056f9d4c),
   (0x9a3eb6e597830500, 0x21c5fdd9b4d576b17581f50b755482ba7a2134a3b5186e8e454acfa1f69511ab),
   (0x72616d6574657273, 0x60b97a2bdc471360c901f58eb3f22679fc24bd6bf6367e14a8a34744f29516aa),
   (0xcfa1f69511ab0300, 0x73c457ba541936f0d907daf0c7253a39a9c5c427c225ba7709e44702d3c6eedc)]

@[irreducible] def sha256 (b : Bytes) : BytesN 32 :=
  .ofNat 32 ((digests.lookup (beNat (b.drop (b.length - 8)))).getD 0)

def decimal (s : String) : Nat := (asBytes s).foldl (fun acc b => 10 * acc + (b.toNat - 48)) 0

def mul (a b : Fq2) : Fq2 := ⟨a.c0 * b.c0 - a.c1 * b.c1, a.c0 * b.c1 + a.c1 * b.c0⟩

/-- Decimal numbers and the equations of the curve and of its twist. -/
def ark : Ark where
  fqFromStr s := some (decimal s)
  isG1 x y := y * y = x * x * x + 3
  isG2 x y :=
    let y2 := mul y y
    let x3 := mul x (mul x x)
    mul ⟨y2.c0 - x3.c0, y2.c1 - x3.c1⟩ ⟨9, 1⟩ = ⟨3, 0⟩

/-- The file for another version. -/
def renamed : VerifierParameters := { parameters with version := "3.0.1" }

/-- The file can be read, the digests of its hashed strings differ, and its selector is the one that the
seals of the release begin with. -/
theorem exists_contents : ∃ c, parameters.contents ark = some c ∧
    ((c.hashed sha256).map sha256).Nodup ∧
    (c.generated sha256).selector.val = [0x73, 0xc4, 0x57, 0xba] := by
  have h : ((parameters.contents ark).any fun c => decide (((c.hashed sha256).map sha256).Nodup ∧
    (c.generated sha256).selector.val = [0x73, 0xc4, 0x57, 0xba])) = true := by decide +kernel
  obtain ⟨c, hc, h⟩ := (Option.any_eq_true _ _).mp h
  exact ⟨c, hc, of_decide_eq_true h⟩

end Sample

theorem parameters_digest_binds_sample : ∃ g g',
    main Sample.ark Sample.sha256 Sample.parameters = some g ∧
    main Sample.ark Sample.sha256 Sample.renamed = some g' ∧
    g.selector.val = [0x73, 0xc4, 0x57, 0xba] ∧
    (Sample.parameters.digest Sample.ark Sample.sha256 = Sample.renamed.digest Sample.ark Sample.sha256 ↔
      { g with versionCode := g'.versionCode } = g') := by
  obtain ⟨c, hc, hnodup, hsel⟩ := Sample.exists_contents
  have hc' : Sample.renamed.contents Sample.ark = some { c with version := "3.0.1" } :=
    contents_eq_some.mpr ⟨(contents_eq_some.mp hc).1, (contents_eq_some.mp hc).2.1,
      (contents_eq_some.mp hc).2.2.1, rfl⟩
  have hg : main Sample.ark Sample.sha256 Sample.parameters = some (c.generated Sample.sha256) := by
    rw [main_eq, hc, Option.map_some]
  have hg' : main Sample.ark Sample.sha256 Sample.renamed =
      some (Contents.generated Sample.sha256 { c with version := "3.0.1" }) := by
    rw [main_eq, hc', Option.map_some]
  refine ⟨_, _, hg, hg', hsel, parameters_digest_binds hg hg' ?_⟩
  have hhashed : Sample.parameters.hashed Sample.ark Sample.sha256 ++
      Sample.renamed.hashed Sample.ark Sample.sha256 = c.hashed Sample.sha256 ++ c.hashed Sample.sha256 := by
    rw [VerifierParameters.hashed, VerifierParameters.hashed, hc, hc']
    rfl
  rw [hhashed]
  intro x hx y hy h
  exact List.inj_on_of_nodup_map hnodup ((List.mem_append.mp hx).elim id id)
    ((List.mem_append.mp hy).elim id id) h

/-! ## The contract -/

section
variable {A : Ark} {B : Bn254} {G₁ G₂ Gₜ : Type} [AddCommGroup G₁] [AddCommGroup G₂] [AddCommGroup Gₜ]
  [Module Fr G₁] [Module Fr G₂] [Module Fr Gₜ] [DecidableEq Gₜ] {C : Curve B G₁ G₂ Gₜ}

/-- The contract does what the file says: it accepts the proofs for the file's points whose public
input consists of the halves of the control root and of the claim digest, and the control id. -/
structure Means (K : Coordinates A C) (sha256 : Bytes → BytesN 32) (c : Contents A)
    (v : Groth16Verifier) : Prop where
  version : v.version = c.version
  selector : v.selector.val = (c.digest sha256).val.take 4
  accepts : ∀ (sealBytes : Bytes) (image journal : BytesN 32),
    v.verify B sha256 sealBytes image journal = .ok () ↔
      ∃ p, Groth16Verifier.Reads C v.selector sealBytes p ∧
        Groth16.Holds C.pair (K.key c) (Groth16.input (K.ic₀ c)
          (((c.signals (claimDigest sha256 image journal)).map fun n : Nat => (n : Fr)).zip (K.ic c))) p

/-- From a file with a plain version a contract is made exactly when the file can be read, and the contract
means the file. -/
theorem build_preserves_meaning (K : Coordinates A C) (R : Compiler) (sha256 : Bytes → BytesN 32)
    (params : VerifierParameters) (hversion : plain params.version = true) :
    Option.Rel (Means K sha256) (params.contents A) (contract A R sha256 params) := by
  rw [contract_eq R hversion]
  cases params.contents A with
  | none => exact .none
  | some c =>
      refine .some ⟨rfl, rfl, fun sealBytes image journal => ?_⟩
      have hsignals : Groth16Verifier.publicSignals B (c.constants sha256)
          (claimDigest sha256 image journal) = _ := publicSignals_constants C c _
      rw [← hsignals]
      exact Groth16Verifier.verifyIntegrity_eq_ok (K.keyPoints c sha256)

end

namespace Sample

/-- Coordinates that encode scalars: the last one is the scalar, the others are zero. -/
def scalars : Ark where
  fqFromStr := ark.fqFromStr
  isG1 x y := x = 0 ∧ y.val < bn254Order
  isG2 x y := x = ⟨0, 0⟩ ∧ y.c1 = 0 ∧ y.c0.val < bn254Order

theorem scalarBytes_natCast {n k : Nat} (h : k < bn254Order) : scalarBytes n (k : Fr) = .ofNat n k := by
  rw [scalarBytes, ZMod.val_natCast_of_lt h]

def coordinates : Coordinates scalars Curve.scalars where
  g1 p := (p.y.val : Fr)
  g2 p := (p.y.c0.val : Fr)
  encodeG1 p := by
    obtain ⟨x, y, hp⟩ := p
    obtain ⟨rfl, hy⟩ := of_decide_eq_true hp
    rw [serializeG1Point_eq, ZMod.val_zero, Nat.zero_mul, Nat.zero_add]
    exact scalarBytes_natCast hy
  encodeG2 p := by
    obtain ⟨x, ⟨y₀, y₁⟩, hp⟩ := p
    obtain ⟨rfl, rfl, hy⟩ := of_decide_eq_true hp
    simp only [serializeG2Point_eq, ZMod.val_zero, Nat.zero_mul, Nat.zero_add]
    exact scalarBytes_natCast hy

/-- The text between the first and the last character. -/
def unquoted (code : String) : String := String.ofList code.toList.tail.dropLast

theorem unquoted_quoted (s : String) : unquoted (quoted s) = s := by
  simp [unquoted, quoted]

/-- Nothing but literals of plain characters compiles. -/
def compiler : Compiler where
  strConst code :=
    if quoted (unquoted code) = code ∧ plain (unquoted code) = true then some (unquoted code) else none
  strConst_quoted h := by
    rw [unquoted_quoted]
    exact if_pos ⟨rfl, h⟩

def scalarG2 : PointG2Json := ⟨"0", "0", "0", "1"⟩

def scalarParameters : VerifierParameters where
  version := parameters.version
  controlRoot := parameters.controlRoot
  bn254ControlId := parameters.bn254ControlId
  verificationKey := ⟨⟨"0", "1"⟩, scalarG2, scalarG2, scalarG2, List.replicate 6 ⟨"0", "1"⟩⟩

theorem isSome_contents : (scalarParameters.contents scalars).isSome = true := by decide +kernel

def scalarContents : Contents scalars := (scalarParameters.contents scalars).get isSome_contents

end Sample

theorem build_preserves_meaning_sample :
    (contract Sample.scalars Sample.compiler Sample.sha256 Sample.scalarParameters).isSome = true ∧
    Option.Rel (Means Sample.coordinates Sample.sha256)
      (Sample.scalarParameters.contents Sample.scalars)
      (contract Sample.scalars Sample.compiler Sample.sha256 Sample.scalarParameters) := by
  have hversion : plain Sample.scalarParameters.version = true := by decide +kernel
  refine ⟨?_, build_preserves_meaning Sample.coordinates Sample.compiler Sample.sha256
    Sample.scalarParameters hversion⟩
  rw [contract_eq _ hversion, Option.isSome_map]
  exact Sample.isSome_contents

end ZkUnderwrite.Verifier.Build
