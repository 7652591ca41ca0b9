import ZkUnderwrite.Lib.Progress
import ZkUnderwrite.Verifier.EmergencyStop

/-!
# What the router and the emergency stop do

One effect for each call that succeeds, with the conditions under which it does. From the effects: an
entry of the router only ever becomes a tombstone, and a pause stays.
-/

namespace ZkUnderwrite.Verifier
open ByteString Transaction Contract Progress

variable {O σ α : Type} {L : Library O} {env : Env}

/-! ## Host operations -/

@[simp] theorem exec_requireAuth (a : Address) (s : σ) :
    (env.requireAuth a : Host σ Unit).exec s =
      if env.authorized a then (.ok (), s) else (.error (.unauthorized a), s) := by
  unfold Env.requireAuth
  split <;> rfl

/-- The owner in the state authorises the call. -/
def Owned (L : Ownable O) (env : Env) (o : O) (a : Address) : Prop :=
  L.getOwner o = some a ∧ env.authorized a = true

theorem exec_enforceOwnerAuth {owner : Option Address} {a : Address} {s s' : σ} :
    (env.enforceOwnerAuth owner : Host σ Address).exec s = (.ok a, s') ↔
      owner = some a ∧ env.authorized a = true ∧ s' = s := by
  unfold Env.enforceOwnerAuth
  cases owner with
  | none => simp
  | some b =>
      rw [Txn.exec_bind_eq_ok]
      constructor
      · rintro ⟨_, _, h, h'⟩
        rw [exec_requireAuth] at h
        split at h
        · rename_i hb
          cases h
          cases h'
          exact ⟨rfl, hb, rfl⟩
        · cases h
      · rintro ⟨⟨⟩, ha, rfl⟩
        exact ⟨(), s', by rw [exec_requireAuth, if_pos ha], rfl⟩

theorem exec_ownableCall {c : OwnableCall} {get : σ → O} {set : O → σ → σ} {s s' : σ} {u : Unit}
    (h : (env.ownableCall L.toOwnable c get set : Host σ Unit).exec s = (.ok u, s')) :
    ∃ a o, L.call c env.ledger (get s) = some (a, o) ∧ env.authorized a = true ∧ s' = set o s := by
  unfold Env.ownableCall at h
  obtain ⟨_, _, hget, h⟩ := Txn.exec_bind_eq_ok.mp h
  cases hget
  cases hc : L.call c env.ledger (get s) with
  | none => rw [hc] at h; cases h
  | some p =>
      rw [hc] at h
      obtain ⟨_, _, hauth, h⟩ := Txn.exec_bind_eq_ok.mp h
      rw [exec_requireAuth] at hauth
      split at hauth
      · rename_i ha
        cases hauth
        cases h
        exact ⟨p.1, p.2, rfl, ha, rfl⟩
      · cases hauth

/-- A computation whose result is fixed by the state leaves the state alone. -/
theorem exec_read {β : Type} {f : σ → Except Fault β} {g : β → α} {s s' : σ} {x : α}
    (h : (do return g (← MonadExcept.ofExcept (f (← get))) : Host σ α).exec s = (.ok x, s')) :
    s' = s := by
  obtain ⟨_, _, hget, hrest⟩ := Txn.exec_bind_eq_ok.mp h
  cases hget
  obtain ⟨_, _, hf, hret⟩ := Txn.exec_bind_eq_ok.mp hrest
  obtain ⟨-, rfl⟩ := Txn.exec_ofExcept_eq.mp hf
  cases hret
  rfl

/-! ## The router -/

namespace Router
variable {r r' : Router O}

/-- What a call that succeeds does to the router. -/
inductive Effect (L : Library O) (env : Env) (r : Router O) : Call → Router O → Prop
  | addVerifier (selector : BytesN 4) (verifier a : Address)
      (owned : Owned L.toOwnable env r.ownable a) (unset : r.verifiers selector = none) :
      Effect L env r (.addVerifier selector verifier) (r.setEntry selector (.active verifier))
  | removeVerifier (selector : BytesN 4) (e : VerifierEntry) (a : Address)
      (owned : Owned L.toOwnable env r.ownable a) (set : r.verifiers selector = some e) :
      Effect L env r (.removeVerifier selector) (r.setEntry selector .tombstone)
  | ownable (c : OwnableCall) (a : Address) (o : O)
      (call : L.call c env.ledger r.ownable = some (a, o)) (authorized : env.authorized a = true) :
      Effect L env r (.ownable c) (r.setOwnable o)
  | read (c : Call) (add : ∀ s v, c ≠ .addVerifier s v) (remove : ∀ s, c ≠ .removeVerifier s)
      (own : ∀ d, c ≠ .ownable d) : Effect L env r c r

theorem exec_onlyOwner {u : Unit} :
    (onlyOwner L env).exec r = (.ok u, r') ↔ r' = r ∧ ∃ a, Owned L.toOwnable env r.ownable a := by
  unfold onlyOwner
  rw [Txn.exec_bind_eq_ok]
  constructor
  · rintro ⟨_, _, hget, h⟩
    cases hget
    obtain ⟨a, _, ha, hret⟩ := Txn.exec_bind_eq_ok.mp h
    obtain ⟨ho, hauth, rfl⟩ := exec_enforceOwnerAuth.mp ha
    cases hret
    exact ⟨rfl, a, ho, hauth⟩
  · rintro ⟨rfl, a, ho, hauth⟩
    refine ⟨r', r', rfl, ?_⟩
    rw [Txn.exec_bind_ok (exec_enforceOwnerAuth.mpr ⟨ho, hauth, rfl⟩)]
    rfl

theorem exec_addVerifier {s : BytesN 4} {v : Address} {u : Unit}
    (h : (addVerifier L env s v).exec r = (.ok u, r')) :
    Effect L env r (.addVerifier s v) r' := by
  obtain ⟨_, _, ho, hrest⟩ := Txn.exec_bind_eq_ok.mp h
  obtain ⟨rfl, a, ha⟩ := exec_onlyOwner.mp ho
  obtain ⟨_, _, hget, hset⟩ := Txn.exec_bind_eq_ok.mp hrest
  cases hget
  split at hset
  · cases hset
  · cases hset
  · rename_i hnone
    cases hset
    exact .addVerifier s v a ha hnone

theorem exec_removeVerifier {s : BytesN 4} {u : Unit}
    (h : (removeVerifier L env s).exec r = (.ok u, r')) :
    Effect L env r (.removeVerifier s) r' := by
  obtain ⟨_, _, ho, hrest⟩ := Txn.exec_bind_eq_ok.mp h
  obtain ⟨rfl, a, ha⟩ := exec_onlyOwner.mp ho
  obtain ⟨_, _, hget, hset⟩ := Txn.exec_bind_eq_ok.mp hrest
  cases hget
  split at hset
  · cases hset
  · rename_i e he
    cases hset
    exact .removeVerifier s e a ha he

theorem perform_effect {c : Call} {x : Ret} (h : (perform L env c).exec r = (.ok x, r')) :
    Effect L env r c r' := by
  cases c with
  | addVerifier s v =>
      obtain ⟨_, _, hadd, hret⟩ := Txn.exec_bind_eq_ok.mp h
      cases hret
      exact exec_addVerifier hadd
  | removeVerifier s =>
      obtain ⟨_, _, hrem, hret⟩ := Txn.exec_bind_eq_ok.mp h
      cases hret
      exact exec_removeVerifier hrem
  | ownable d =>
      obtain ⟨_, _, hown, hret⟩ := Txn.exec_bind_eq_ok.mp h
      cases hret
      obtain ⟨a, o, hc, ha, rfl⟩ := exec_ownableCall hown
      exact .ownable d a o hc ha
  | getVerifierBySelector s | getVerifierFromSeal b | verify s i j | verifyIntegrity q =>
      rw [exec_read h]
      exact .read _ nofun nofun nofun
  | verifiers s | getOwner =>
      cases h
      exact .read _ nofun nofun nofun

end Router

/-! ## The emergency stop -/

namespace EmergencyStop
variable {e e' : EmergencyStop O}

/-- A proof of the zero claim that the wrapped verifier accepts. -/
def Exploit (env : Env) (e : EmergencyStop O) (receipt : Receipt) : Prop :=
  e.paused = false ∧ receipt.claimDigest = zeroDigest ∧
    ∃ v, e.verifier = some v ∧ env.client v (.verifyIntegrity receipt) = .ok ()

/-- What a call that succeeds does to the emergency stop. -/
inductive Effect (L : Library O) (env : Env) (e : EmergencyStop O) : Call → EmergencyStop O → Prop
  | estop (a : Address) (owned : Owned L.toOwnable env e.ownable a) :
      Effect L env e .estop (e.setPaused true)
  | pause (a : Address) (owned : Owned L.toOwnable env e.ownable a) :
      Effect L env e (.pause a) (e.setPaused true)
  | estopWithReceipt (receipt : Receipt) (exploit : Exploit env e receipt) :
      Effect L env e (.estopWithReceipt receipt) (e.setPaused true)
  | ownable (c : OwnableCall) (a : Address) (o : O)
      (call : L.call c env.ledger e.ownable = some (a, o)) (authorized : env.authorized a = true) :
      Effect L env e (.ownable c) (e.setOwnable o)
  | read (c : Call) (estop : c ≠ .estop) (pause : ∀ a, c ≠ .pause a)
      (receipt : ∀ r, c ≠ .estopWithReceipt r) (own : ∀ d, c ≠ .ownable d) : Effect L env e c e

theorem exec_libraryPause {u : Unit} (h : (libraryPause L).exec e = (.ok u, e')) :
    e' = e.setPaused true := by
  obtain ⟨_, _, hget, hrest⟩ := Txn.exec_bind_eq_ok.mp h
  cases hget
  cases hp : L.pause e.paused with
  | none => rw [hp] at hrest; cases hrest
  | some b =>
      rw [hp] at hrest
      cases hrest
      have hb : b = true := by
        cases he : e.paused with
        | false =>
            rw [he] at hp
            exact Option.some.inj (hp.symm.trans L.pause_false)
        | true =>
            rw [he] at hp
            exact L.pause_true hp
      rw [hb]

theorem forward_eq_ok {client : Client} {q : Query} :
    e.forward client q = .ok () ↔
      e.paused = false ∧ ∃ v, e.verifier = some v ∧ client v q = .ok () := by
  unfold forward whenNotPaused getVerifier
  cases e.paused with
  | true => simp [bind, Except.bind]
  | false => cases e.verifier <;> simp [bind, Except.bind]

theorem exec_estop {u : Unit} (h : (estop L env).exec e = (.ok u, e')) :
    ∃ a, Owned L.toOwnable env e.ownable a ∧ e' = e.setPaused true := by
  obtain ⟨_, _, hget, hrest⟩ := Txn.exec_bind_eq_ok.mp h
  cases hget
  obtain ⟨a, _, ha, hpause⟩ := Txn.exec_bind_eq_ok.mp hrest
  obtain ⟨ho, hauth, rfl⟩ := exec_enforceOwnerAuth.mp ha
  exact ⟨a, ⟨ho, hauth⟩, exec_libraryPause hpause⟩

theorem exec_pause {caller : Address} {u : Unit} (h : (pause L env caller).exec e = (.ok u, e')) :
    Owned L.toOwnable env e.ownable caller ∧ e' = e.setPaused true := by
  obtain ⟨_, _, hget, hrest⟩ := Txn.exec_bind_eq_ok.mp h
  cases hget
  obtain ⟨a, _, ha, hcheck⟩ := Txn.exec_bind_eq_ok.mp hrest
  obtain ⟨ho, hauth, rfl⟩ := exec_enforceOwnerAuth.mp ha
  by_cases hne : a ≠ caller
  · rw [if_pos hne] at hcheck
    cases hcheck
  · rw [if_neg hne] at hcheck
    cases not_not.mp hne
    exact ⟨⟨ho, hauth⟩, exec_libraryPause hcheck⟩

theorem exec_estopWithReceipt {receipt : Receipt} {u : Unit}
    (h : (estopWithReceipt L env receipt).exec e = (.ok u, e')) :
    Exploit env e receipt ∧ e' = e.setPaused true := by
  obtain ⟨_, _, hget, hrest⟩ := Txn.exec_bind_eq_ok.mp h
  cases hget
  obtain ⟨_, _, hpaused, hcheck⟩ := Txn.exec_bind_eq_ok.mp hrest
  obtain ⟨-, rfl⟩ := Txn.exec_ofExcept_eq.mp hpaused
  by_cases hne : receipt.claimDigest ≠ zeroDigest
  · rw [if_pos hne] at hcheck
    cases hcheck
  · rw [if_neg hne] at hcheck
    obtain ⟨_, _, hget, hverify⟩ := Txn.exec_bind_eq_ok.mp hcheck
    cases hget
    obtain ⟨_, _, hv, hpause⟩ := Txn.exec_bind_eq_ok.mp hverify
    obtain ⟨hok, rfl⟩ := Txn.exec_ofExcept_eq.mp hv
    obtain ⟨hnot, hclient⟩ := forward_eq_ok.mp hok
    exact ⟨⟨hnot, not_not.mp hne, hclient⟩, exec_libraryPause hpause⟩

theorem perform_effect {c : Call} {x : Ret} (h : (perform L env c).exec e = (.ok x, e')) :
    Effect L env e c e' := by
  cases c with
  | estop =>
      obtain ⟨_, _, hes, hret⟩ := Txn.exec_bind_eq_ok.mp h
      cases hret
      obtain ⟨a, ha, rfl⟩ := exec_estop hes
      exact .estop a ha
  | pause a =>
      obtain ⟨_, _, hp, hret⟩ := Txn.exec_bind_eq_ok.mp h
      cases hret
      obtain ⟨ha, rfl⟩ := exec_pause hp
      exact .pause a ha
  | estopWithReceipt r =>
      obtain ⟨_, _, hes, hret⟩ := Txn.exec_bind_eq_ok.mp h
      cases hret
      obtain ⟨hr, rfl⟩ := exec_estopWithReceipt hes
      exact .estopWithReceipt r hr
  | ownable d =>
      obtain ⟨_, _, hown, hret⟩ := Txn.exec_bind_eq_ok.mp h
      cases hret
      obtain ⟨a, o, hc, ha, rfl⟩ := exec_ownableCall hown
      exact .ownable d a o hc ha
  | unpause a =>
      obtain ⟨_, _, hu, -⟩ := Txn.exec_bind_eq_ok.mp h
      cases hu
  | getVerifier | verify s i j | verifyIntegrity q =>
      rw [exec_read h]
      exact .read _ nofun nofun nofun nofun
  | paused | getOwner =>
      cases h
      exact .read _ nofun nofun nofun nofun

end EmergencyStop

end ZkUnderwrite.Verifier
