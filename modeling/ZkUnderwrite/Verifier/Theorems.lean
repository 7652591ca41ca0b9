import ZkUnderwrite.Verifier.Lemmas.Query
import ZkUnderwrite.Verifier.Lemmas.Runs

/-!
# The verifier stack over whole runs

The state of a router and of an emergency stop, read off the calls that succeeded on the way to it, and
what no run can bring about. A run starts with no contract deployed; anyone deploys and calls.
-/

namespace ZkUnderwrite.Verifier
open ByteString Transaction Contract Progress

/-! ## A sample network

A router over an emergency stop over a Groth16 verifier whose key is zero in every point, so that the
pairings of the zero proof are all one. -/

namespace Sample

structure Ownership where
  owner : Option Address
  pending : Option Address

def library : Library Ownership where
  setOwner a := ⟨some a, none⟩
  getOwner := Ownership.owner
  call
    | .transferOwnership b _, _, o => o.owner.map fun a => (a, ⟨o.owner, some b⟩)
    | .acceptOwnership, _, o => o.pending.map fun a => (a, ⟨some a, none⟩)
    | .renounceOwnership, _, o => o.owner.map fun a => (a, ⟨none, none⟩)
  pause b := if b then none else some true
  pause_false := rfl
  pause_true := nofun

def zeroPoint (n : Nat) : BytesN n := .replicate n 0

/-- The host's functions on zero points. -/
def bn254 : Bn254 where
  frFromBytes b := (beNat b.val : Fr)
  g1Neg x := if x = zeroPoint 64 then some x else none
  g1Mul x _ := if x = zeroPoint 64 then some x else none
  g1Add x y := if x = zeroPoint 64 ∧ y = zeroPoint 64 then some x else none
  pairingCheck xs ys :=
    if xs ≠ [] ∧ (∀ x ∈ xs, x = zeroPoint 64) ∧ (∀ y ∈ ys, y = zeroPoint 128) ∧
        xs.length = ys.length then
      some true
    else none

def chain (sha256 keccak256 : Bytes → BytesN 32) : Chain Ownership where
  library := library
  sha256 := sha256
  keccak256 := keccak256
  bn254 := bn254
  depthLimit := 100

def selector : BytesN 4 := ⟨[0x31, 0x0f, 0xe5, 0x98], rfl⟩

def groth16 : Groth16Verifier where
  selector := selector
  version := "3.0.0"
  controlRoot0 := .replicate 16 1
  controlRoot1 := .replicate 16 2
  bn254ControlId := .replicate 32 3
  verificationKey := ⟨zeroPoint 64, zeroPoint 128, zeroPoint 128, zeroPoint 128,
    List.replicate 6 (zeroPoint 64), rfl⟩

def router : Address := ⟨2⟩
def verifier : Address := ⟨30⟩
def stop : Address := ⟨31⟩
def owner : Address := ⟨40⟩

def context : Context := ⟨(· = owner), 0, fun _ _ => .error .missing⟩

def add : Router.Call := .addVerifier selector stop

/-- Everything is deployed, and the selector leads over the emergency stop to the verifier. -/
def setUp : List Input :=
  [.deploy verifier (.groth16 groth16), .deploy stop (.emergencyStop verifier owner),
    .deploy router (.router owner), .call context router (.router add)]

def estop : Input := .call context stop (.emergencyStop .estop)

end Sample

variable {O : Type} (P : Chain O)

/-! ## The life of a selector -/

/-- A selector's entry is unset until its owner's first `add_verifier`, then leads to the verifier that
was added, and from the first `remove_verifier` on is a tombstone. Only the router's owner moves it. -/
theorem entry_lifecycle (is : List Input) (a : Address) (s : BytesN 4) :
    Lifecycle a s (history P is) ((run P is).entry a s) ∧
    ∀ t ∈ history P is, t.after.entry a s ≠ t.before.entry a s →
      RouterOwned P a t ∧
        ((∃ v, Adds a s v t ∧ t.before.entry a s = none ∧ t.after.entry a s = some (.active v)) ∨
          (Removes a s t ∧ t.after.entry a s = some .tombstone)) := by
  refine ⟨lifecycle_run is a s, ?_⟩
  refine Machine.turns_forall (I := fun _ => True) (fun _ _ _ => trivial) ?_ trivial is
  intro net i _ hne
  rcases entry_turn P net i a s with ⟨he, -⟩ | ⟨ho, ⟨v, hadd, -, hb, he⟩ | ⟨e, hrem, -, he⟩⟩
  · exact absurd he hne
  · exact ⟨ho, .inl ⟨v, hadd, hb, he⟩⟩
  · exact ⟨ho, .inr ⟨hrem, he⟩⟩

/-- Verifiers to which a selector leads at two moments of a run are the same. -/
theorem active_unique {is js js' : List Input} {a : Address} {s : BytesN 4} (h : js <+: is)
    (h' : js' <+: is) {v v' : Address} (hv : (run P js).entry a s = some (.active v))
    (hv' : (run P js').entry a s = some (.active v')) : v = v' := by
  rcases Machine.prefix_total Net.Becomes.refl Net.Becomes.trans step_becomes Net.empty h h' with hb | hb
  · obtain ⟨e, he, rfl | rfl⟩ := hb.entry a s _ hv <;> cases hv'.symm.trans he
    rfl
  · obtain ⟨e, he, rfl | rfl⟩ := hb.entry a s _ hv' <;> cases hv.symm.trans he
    rfl

/-- A router has one verifier for a selector over the whole run: at every moment it passes every seal with
this selector on to that verifier, whatever answers there, or refuses it. -/
theorem one_verifier_per_selector (is : List Input) (a : Address) (s : BytesN 4) :
    ∃ v, ∀ js, js <+: is → ∀ r, run P js a = some (.router r) →
      ∀ q, Router.selectorFromSeal q.sealBytes = .ok s →
        (∀ b, Passes (run P js) q a b → b = v) ∧
        ((∀ client, r.forward client q = client v q) ∨
          ∃ e, ∀ client, r.forward client q = .error (.error e)) := by
  obtain ⟨v, hv⟩ : ∃ v, ∀ js, js <+: is → ∀ b, (run P js).entry a s = some (.active b) → b = v := by
    by_cases hex : ∃ js, js <+: is ∧ ∃ v, (run P js).entry a s = some (.active v)
    · obtain ⟨js', hjs', v, hv'⟩ := hex
      exact ⟨v, fun js hjs b hb => active_unique P hjs hjs' hb hv'⟩
    · exact ⟨a, fun js hjs b hb => absurd ⟨js, hjs, b, hb⟩ hex⟩
  refine ⟨v, fun js hjs r hr q hs => ⟨fun b hb => ?_, ?_⟩⟩
  · obtain ⟨s', hs', hb⟩ := (passes_router hr).mp hb
    cases hs.symm.trans hs'
    exact hv js hjs b ((entry_of_router hr).trans hb)
  · rcases forward_of_selector r hs with ⟨b, hb, hall⟩ | ⟨-, herr⟩
    · cases hv js hjs b ((entry_of_router hr).trans hb)
      exact .inl hall
    · exact .inr herr

/-! ## The emergency stop -/

/-- A contract is stopped exactly when a stop of it has succeeded, and every stop came from the owner or
with a proof of the zero claim that the wrapped verifier accepted. -/
theorem stopped_iff (is : List Input) (a : Address) :
    ((run P is).stopped a ↔ ∃ t ∈ history P is, Stops a t) ∧
    ∀ t ∈ history P is, Stops a t → StopJustified P a t := by
  refine ⟨stopped_run is a, ?_⟩
  refine Machine.turns_forall (I := fun _ => True) (fun _ _ _ => trivial) ?_ trivial is
  intro net i _ hstop
  rcases stopped_turn P net i a with ⟨-, hno⟩ | ⟨-, -, hj⟩
  · exact absurd hstop hno
  · exact hj

/-! ## The answers -/

/-- After the turns `ts` the contract at `a` passes the query on to the one at `b`. -/
inductive PassesOn (ts : List (Turn O)) (q : Query) (a b : Address) : Prop
  | router (owner : Address) (s : BytesN 4) (deployed : ∃ t ∈ ts, Deploys a (.router owner) t)
      (selects : Router.selectorFromSeal q.sealBytes = .ok s) (added : ∃ t ∈ ts, Adds a s b t)
      (kept : ∀ t ∈ ts, ¬ Removes a s t) : PassesOn ts q a b
  | emergencyStop (owner : Address) (deployed : ∃ t ∈ ts, Deploys a (.emergencyStop b owner) t)
      (running : ∀ t ∈ ts, ¬ Stops a t) : PassesOn ts q a b

/-- After the turns `ts` the contract at `a` gives this answer to the query itself. -/
inductive AnswersWith (foreign : Client) (ts : List (Turn O)) (q : Query) (a : Address) :
    Except Fault Unit → Prop
  | malformedSeal (owner : Address) (deployed : ∃ t ∈ ts, Deploys a (.router owner) t)
      (short : q.sealBytes.length < 4) : AnswersWith foreign ts q a (.error (.error .malformedSeal))
  | selectorUnknown (owner : Address) (s : BytesN 4) (deployed : ∃ t ∈ ts, Deploys a (.router owner) t)
      (selects : Router.selectorFromSeal q.sealBytes = .ok s) (added : ∀ t ∈ ts, ∀ v, ¬ Adds a s v t)
      (kept : ∀ t ∈ ts, ¬ Removes a s t) :
      AnswersWith foreign ts q a (.error (.error .selectorUnknown))
  | selectorRemoved (owner : Address) (s : BytesN 4) (deployed : ∃ t ∈ ts, Deploys a (.router owner) t)
      (selects : Router.selectorFromSeal q.sealBytes = .ok s) (removed : ∃ t ∈ ts, Removes a s t) :
      AnswersWith foreign ts q a (.error (.error .selectorRemoved))
  | enforcedPause (v owner : Address) (deployed : ∃ t ∈ ts, Deploys a (.emergencyStop v owner) t)
      (stopped : ∃ t ∈ ts, Stops a t) : AnswersWith foreign ts q a (.error .enforcedPause)
  | groth16 (v : Groth16Verifier) (deployed : ∃ t ∈ ts, Deploys a (.groth16 v) t) :
      AnswersWith foreign ts q a (v.answer P.bn254 P.sha256 q)
  | mock (s : BytesN 4) (deployed : ∃ t ∈ ts, Deploys a (.mock s) t) :
      AnswersWith foreign ts q a ((MockVerifier.constructor s).answer P.sha256 P.keccak256 q)
  | foreign (free : ∀ t ∈ ts, ∀ c, ¬ Deploys a c t) : AnswersWith foreign ts q a (foreign a q)

section
variable {P} {is : List Input} {foreign : Client} {q : Query} {a b : Address}
  {out : Except Fault Unit}

theorem passesOn_of_passes (h : Passes (run P is) q a b) : PassesOn (history P is) q a b := by
  have hdep := deployed_run (P := P) is a
  generalize hn : run P is a = i at hdep
  cases hdep with
  | free _ =>
      unfold Passes at h
      rw [hn] at h
      exact h.elim
  | taken c i hb hc =>
      have hkind := kind_of_becomes hb
      cases c with
      | router owner =>
          obtain ⟨r, rfl⟩ := hkind
          obtain ⟨s, hs, hv⟩ := (passes_router hn).mp h
          rw [← entry_of_router hn, (lifecycle_run is a s).active_iff] at hv
          exact .router owner s ((hc _).mpr rfl) hs hv.1 hv.2
      | emergencyStop v owner =>
          obtain ⟨e, rfl, hw⟩ := hkind
          obtain ⟨hp, hv⟩ := (passes_emergencyStop hn).mp h
          cases hw.symm.trans hv
          exact .emergencyStop owner ((hc _).mpr rfl) ((running_of_emergencyStop hn).mp hp)
      | groth16 _ | mock _ =>
          cases hkind
          unfold Passes at h
          rw [hn] at h
          exact h.elim

theorem passes_of_passesOn (h : PassesOn (history P is) q a b) : Passes (run P is) q a b := by
  cases h with
  | router owner s hd hs hadd hrem =>
      obtain ⟨r, hn⟩ := kind_of_deploys hd
      exact (passes_router hn).mpr
        ⟨s, hs, entry_of_router hn ▸ (lifecycle_run is a s).active_iff.mpr ⟨hadd, hrem⟩⟩
  | emergencyStop owner hd hrun =>
      obtain ⟨e, hn, hw⟩ := kind_of_deploys hd
      exact (passes_emergencyStop hn).mpr ⟨(running_of_emergencyStop hn).mpr hrun, hw⟩

theorem answersWith_of_answers (h : Answers P foreign (run P is) q a out) :
    AnswersWith P foreign (history P is) q a out := by
  have hdep := deployed_run (P := P) is a
  generalize hn : run P is a = i at hdep
  unfold Answers at h
  rw [hn] at h
  cases hdep with
  | free hfree =>
      cases h
      exact .foreign hfree
  | taken c i hb hc =>
      have hkind := kind_of_becomes hb
      have hd := (hc c).mpr rfl
      cases c with
      | router owner =>
          obtain ⟨r, rfl⟩ := hkind
          obtain ⟨e, he, rfl⟩ := h
          rcases getVerifierFromSeal_eq_error.mp he with
            ⟨hlen, rfl⟩ | ⟨s, hs, ⟨hv, rfl⟩ | ⟨hv, rfl⟩⟩
          · exact .malformedSeal owner hd hlen
          · rw [← entry_of_router hn, (lifecycle_run is a s).unset_iff] at hv
            exact .selectorUnknown owner s hd hs hv.1 hv.2
          · rw [← entry_of_router hn, (lifecycle_run is a s).removed_iff] at hv
            exact .selectorRemoved owner s hd hs hv
      | emergencyStop v owner =>
          obtain ⟨e, rfl, hw⟩ := hkind
          rcases h with ⟨hp, rfl⟩ | ⟨-, hv, -⟩
          · exact .enforcedPause v owner hd ((stopped_run is a).mp ⟨e, hn, hp⟩)
          · cases hw.symm.trans hv
      | groth16 v =>
          cases hkind
          cases h
          exact .groth16 v hd
      | mock s =>
          cases hkind
          cases h
          exact .mock s hd

theorem answers_of_answersWith (h : AnswersWith P foreign (history P is) q a out) :
    Answers P foreign (run P is) q a out := by
  unfold Answers
  cases h with
  | malformedSeal owner hd hlen =>
      obtain ⟨r, hn⟩ := kind_of_deploys hd
      rw [hn]
      exact ⟨_, getVerifierFromSeal_eq_error.mpr (.inl ⟨hlen, rfl⟩), rfl⟩
  | selectorUnknown owner s hd hs hadd hrem =>
      obtain ⟨r, hn⟩ := kind_of_deploys hd
      have hv := (lifecycle_run is a s).unset_iff.mpr ⟨hadd, hrem⟩
      rw [entry_of_router hn] at hv
      rw [hn]
      exact ⟨_, getVerifierFromSeal_eq_error.mpr (.inr ⟨s, hs, .inl ⟨hv, rfl⟩⟩), rfl⟩
  | selectorRemoved owner s hd hs hrem =>
      obtain ⟨r, hn⟩ := kind_of_deploys hd
      have hv := (lifecycle_run is a s).removed_iff.mpr hrem
      rw [entry_of_router hn] at hv
      rw [hn]
      exact ⟨_, getVerifierFromSeal_eq_error.mpr (.inr ⟨s, hs, .inr ⟨hv, rfl⟩⟩), rfl⟩
  | enforcedPause v owner hd hstop =>
      obtain ⟨e, hn, -⟩ := kind_of_deploys hd
      rw [hn]
      exact .inl ⟨(stopped_of_emergencyStop hn).mp ((stopped_run is a).mpr hstop), rfl⟩
  | groth16 v hd =>
      rw [kind_of_deploys hd]
  | mock s hd =>
      rw [kind_of_deploys hd]
  | foreign hfree =>
      have hdep := deployed_run (P := P) is a
      generalize run P is a = i at hdep
      cases hdep with
      | free _ => rfl
      | taken c _ _ hc =>
          obtain ⟨t, ht, hd⟩ := (hc c).mpr rfl
          exact absurd hd (hfree t ht c)

end

/-- What the network answers to a query is a function of the deployments and calls that have succeeded so
far: they decide which contract passes a query on, and which one answers it and how. -/
theorem answers_by_history (is : List Input) (foreign : Client) (depth : Nat) (stack : List Address)
    (a : Address) (q : Query) (out : Except Fault Unit) :
    P.query foreign (run P is) depth stack a q = out ↔
      Comes (PassesOn (history P is) q) (AnswersWith P foreign (history P is) q) depth stack a out := by
  have hpass : Passes (run P is) q = PassesOn (history P is) q :=
    funext₂ fun a b => propext ⟨passesOn_of_passes, passes_of_passesOn⟩
  have hans : Answers P foreign (run P is) q = AnswersWith P foreign (history P is) q :=
    funext₂ fun a out => propext ⟨answersWith_of_answers, answers_of_answersWith⟩
  rw [query_eq, hpass, hans]

end ZkUnderwrite.Verifier
