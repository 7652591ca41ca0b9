import ZkUnderwrite.Verifier.Lemmas.Router
import ZkUnderwrite.Verifier.Network

/-!
# Runs of the network

One effect for each input that succeeds; an input that fails changes nothing. Along a run the contracts
only advance: their kinds stay, the entries of the routers become tombstones and nothing else, and what
is paused stays paused.
-/

namespace ZkUnderwrite.Verifier
open ByteString Transaction Contract Progress

variable {O : Type} {P : Chain O} {net net' : Net O}

/-! ## Effects -/

/-- What an input that succeeds does to the network. -/
inductive Effect (P : Chain O) (net : Net O) : Input → Net O → Prop
  | deploy (a : Address) (c : Creation) (free : net a = none) :
      Effect P net (.deploy a c) (Function.update net a (some (P.create c)))
  | router (x : Context) (a : Address) (c : Router.Call) (r r' : Router O)
      (here : net a = some (.router r)) (effect : Router.Effect P.library (P.env x net a) r c r') :
      Effect P net (.call x a (.router c)) (Function.update net a (some (.router r')))
  | emergencyStop (x : Context) (a : Address) (c : EmergencyStop.Call) (e e' : EmergencyStop O)
      (here : net a = some (.emergencyStop e))
      (effect : EmergencyStop.Effect P.library (P.env x net a) e c e') :
      Effect P net (.call x a (.emergencyStop c)) (Function.update net a (some (.emergencyStop e')))

theorem step_effect {i : Input} {ret : Ret} (h : P.step net i = (.ok ret, net')) :
    Effect P net i net' := by
  cases i with
  | deploy a c =>
      change P.deploy a c net = _ at h
      unfold Chain.deploy at h
      split at h
      · cases h
      · rename_i hfree
        cases h
        exact .deploy a c hfree
  | call x a c =>
      change P.invoke x a c net = _ at h
      unfold Chain.invoke at h
      split at h
      · rename_i r d hr
        obtain ⟨hok, rfl⟩ := Prod.mk.inj h
        exact .router x a d r _ hr
          (Router.perform_effect (atomically_eq_ok.mp (Prod.ext hok rfl)))
      · rename_i e d he
        obtain ⟨hok, rfl⟩ := Prod.mk.inj h
        exact .emergencyStop x a d e _ he
          (EmergencyStop.perform_effect (atomically_eq_ok.mp (Prod.ext hok rfl)))
      · cases h

theorem step_error {i : Input} {f : Fault} (h : (P.step net i).1 = .error f) :
    (P.step net i).2 = net := by
  cases i with
  | deploy a c =>
      change (P.deploy a c net).1 = _ at h
      change (P.deploy a c net).2 = _
      unfold Chain.deploy at h ⊢
      split at h
      · rfl
      · cases h
  | call x a c =>
      change (P.invoke x a c net).1 = _ at h
      change (P.invoke x a c net).2 = _
      unfold Chain.invoke at h ⊢
      split at h
      · rename_i r d hr
        rw [atomically_fst] at h
        simp only [atomically_snd_of_error h]
        rw [← hr, Function.update_eq_self]
      · rename_i e d he
        rw [atomically_fst] at h
        simp only [atomically_snd_of_error h]
        rw [← he, Function.update_eq_self]
      · rfl

/-- Every input has an effect or leaves the network alone. -/
theorem step_cases (P : Chain O) (net : Net O) (i : Input) :
    (P.step net i).2 = net ∨ Effect P net i (P.step net i).2 := by
  cases h : (P.step net i).1 with
  | error f => exact .inl (step_error h)
  | ok ret => exact .inr (step_effect (Prod.ext h rfl))

/-! ## Progress -/

/-- What an entry can become: itself or a tombstone. -/
def VerifierEntry.Becomes (e e' : VerifierEntry) : Prop := e' = e ∨ e' = .tombstone

def Router.Becomes (r r' : Router O) : Prop :=
  ∀ s, Advances VerifierEntry.Becomes (r.verifiers s) (r'.verifiers s)

def EmergencyStop.Becomes (e e' : EmergencyStop O) : Prop :=
  e'.verifier = e.verifier ∧ (e.paused = true → e'.paused = true)

def Instance.Becomes : Instance O → Instance O → Prop
  | .router r, .router r' => r.Becomes r'
  | .emergencyStop e, .emergencyStop e' => e.Becomes e'
  | .groth16 v, .groth16 v' => v' = v
  | .mock m, .mock m' => m' = m
  | _, _ => False

def Net.Becomes (net net' : Net O) : Prop := ∀ a, Advances Instance.Becomes (net a) (net' a)

theorem VerifierEntry.Becomes.refl (e : VerifierEntry) : e.Becomes e := .inl rfl

theorem VerifierEntry.Becomes.trans (a b c : VerifierEntry) (h : a.Becomes b) (h' : b.Becomes c) :
    a.Becomes c := by
  rcases h with rfl | rfl
  · exact h'
  · rcases h' with rfl | rfl <;> exact .inr rfl

theorem Instance.Becomes.refl (i : Instance O) : i.Becomes i := by
  cases i with
  | router r => exact fun s => Advances.refl VerifierEntry.Becomes.refl _
  | emergencyStop e => exact ⟨rfl, id⟩
  | groth16 v | mock m => rfl

theorem Instance.Becomes.trans (a b c : Instance O) (h : a.Becomes b) (h' : b.Becomes c) :
    a.Becomes c := by
  cases b with
  | router r =>
      cases a with
      | router _ =>
          cases c with
          | router _ => exact fun s => (h s).trans VerifierEntry.Becomes.trans (h' s)
          | _ => exact h'.elim
      | _ => exact h.elim
  | emergencyStop e =>
      cases a with
      | emergencyStop _ =>
          cases c with
          | emergencyStop _ => exact ⟨h'.1.trans h.1, fun hp => h'.2 (h.2 hp)⟩
          | _ => exact h'.elim
      | _ => exact h.elim
  | groth16 v =>
      cases a with
      | groth16 _ => exact Eq.subst (motive := fun x => (Instance.groth16 x).Becomes c) h h'
      | _ => exact h.elim
  | mock m =>
      cases a with
      | mock _ => exact Eq.subst (motive := fun x => (Instance.mock x).Becomes c) h h'
      | _ => exact h.elim

theorem Net.Becomes.refl (net : Net O) : net.Becomes net :=
  fun _ => Advances.refl Instance.Becomes.refl _

theorem Net.Becomes.trans (a b c : Net O) (h : a.Becomes b) (h' : b.Becomes c) : a.Becomes c :=
  fun x => (h x).trans Instance.Becomes.trans (h' x)

theorem Router.Effect.becomes {L : Library O} {env : Env} {r r' : Router O} {c : Router.Call}
    (h : Router.Effect L env r c r') : r.Becomes r' := by
  intro s
  cases h with
  | addVerifier t v a _ hnone =>
      refine advances_update VerifierEntry.Becomes.refl ?_ s
      rw [hnone]
      exact advances_none
  | removeVerifier t e a _ he =>
      refine advances_update VerifierEntry.Becomes.refl ?_ s
      rw [he]
      exact advances_some.mpr (.inr rfl)
  | ownable c a o _ _ => exact Advances.refl VerifierEntry.Becomes.refl _
  | read => exact Advances.refl VerifierEntry.Becomes.refl _

theorem EmergencyStop.Effect.becomes {L : Library O} {env : Env} {e e' : EmergencyStop O}
    {c : EmergencyStop.Call} (h : EmergencyStop.Effect L env e c e') : e.Becomes e' := by
  cases h with
  | estop | pause | estopWithReceipt => exact ⟨rfl, fun _ => rfl⟩
  | ownable | read => exact ⟨rfl, id⟩

theorem Effect.becomes {i : Input} (h : Effect P net i net') : net.Becomes net' := by
  intro a
  cases h with
  | deploy b c hfree =>
      refine advances_update Instance.Becomes.refl ?_ a
      rw [hfree]
      exact advances_none
  | router x b c r r' hr he =>
      refine advances_update Instance.Becomes.refl ?_ a
      rw [hr]
      exact advances_some.mpr he.becomes
  | emergencyStop x b c e e' he heff =>
      refine advances_update Instance.Becomes.refl ?_ a
      rw [he]
      exact advances_some.mpr heff.becomes

theorem step_becomes (net : Net O) (i : Input) : net.Becomes (P.step net i).2 := by
  rcases step_cases P net i with h | h
  · rw [h]
    exact .refl net
  · exact h.becomes

theorem run_becomes (net : Net O) (is : List Input) : net.Becomes (Machine.final P.step net is) :=
  Machine.final_rel Net.Becomes.refl Net.Becomes.trans step_becomes net is

theorem Net.Becomes.entry (h : net.Becomes net') (a : Address) (s : BytesN 4) :
    Advances VerifierEntry.Becomes (net.entry a s) (net'.entry a s) := by
  unfold Net.entry
  cases hn : net a with
  | none => exact advances_none
  | some i =>
      obtain ⟨i', hi', hb⟩ := h a i hn
      cases i with
      | router r =>
          cases i' with
          | router r' =>
              simp only [hi']
              exact hb s
          | _ => exact hb.elim
      | _ => exact advances_none

theorem Net.Becomes.stopped (h : net.Becomes net') {a : Address} (hs : net.stopped a) :
    net'.stopped a := by
  obtain ⟨e, he, hp⟩ := hs
  obtain ⟨i', hi', hb⟩ := h a _ he
  cases i' with
  | emergencyStop e' => exact ⟨e', hi', hb.2 hp⟩
  | _ => exact hb.elim

/-! ## One entry in one turn -/

theorem Router.Effect.entry {L : Library O} {env : Env} {r r' : Router O} {c : Router.Call}
    (h : Router.Effect L env r c r') (s : BytesN 4) :
    (r'.verifiers s = r.verifiers s ∧ (∀ v, c ≠ .addVerifier s v) ∧ c ≠ .removeVerifier s) ∨
    (∃ a, Owned L.toOwnable env r.ownable a ∧
      ((∃ v, c = .addVerifier s v ∧ r.verifiers s = none ∧ r'.verifiers s = some (.active v)) ∨
        ∃ e, c = .removeVerifier s ∧ r.verifiers s = some e ∧ r'.verifiers s = some .tombstone)) := by
  cases h with
  | addVerifier t v a ho hnone =>
      by_cases h : s = t
      · subst h
        exact .inr ⟨a, ho, .inl ⟨v, rfl, hnone, Function.update_self _ _ _⟩⟩
      · refine .inl ⟨Function.update_of_ne h _ _, ?_, nofun⟩
        rintro w ⟨⟩
        exact h rfl
  | removeVerifier t e a ho hsome =>
      by_cases h : s = t
      · subst h
        exact .inr ⟨a, ho, .inr ⟨e, rfl, hsome, Function.update_self _ _ _⟩⟩
      · refine .inl ⟨Function.update_of_ne h _ _, nofun, ?_⟩
        rintro ⟨⟩
        exact h rfl
  | ownable c a o _ _ => exact .inl ⟨rfl, nofun, nofun⟩
  | read c hadd hrem _ => exact .inl ⟨rfl, hadd s, hrem s⟩

theorem entry_of_router {a : Address} {r : Router O} {s : BytesN 4} (h : net a = some (.router r)) :
    net.entry a s = r.verifiers s := by
  rw [Net.entry, h]

theorem entry_update_self {a : Address} {r : Router O} {s : BytesN 4} :
    Net.entry (Function.update net a (some (.router r))) a s = r.verifiers s :=
  entry_of_router (Function.update_self _ _ _)

theorem entry_update_of_ne {a b : Address} {i : Option (Instance O)} {s : BytesN 4} (h : a ≠ b) :
    Net.entry (Function.update net b i) a s = net.entry a s := by
  unfold Net.entry
  rw [Function.update_of_ne h]

/-- A turn that writes no router with the entry leaves the entry as it is. -/
theorem entry_update_other {a b : Address} {i : Instance O} {s : BytesN 4}
    (h : net.entry b s = none) (hi : ∀ r, i = .router r → r.verifiers s = none) :
    Net.entry (Function.update net b (some i)) a s = net.entry a s := by
  by_cases hab : a = b
  · subst hab
    rw [h, Net.entry, Function.update_self]
    cases i with
    | router r => exact hi r rfl
    | _ => rfl
  · exact entry_update_of_ne hab

/-- What an input does to one entry. -/
theorem Effect.entry {i : Input} (h : Effect P net i net') (a : Address) (s : BytesN 4) :
    (net'.entry a s = net.entry a s ∧ (∀ x v, i ≠ .call x a (.router (.addVerifier s v))) ∧
      ∀ x, i ≠ .call x a (.router (.removeVerifier s))) ∨
    (∃ x r o, net a = some (.router r) ∧ Owned P.library.toOwnable (P.env x net a) r.ownable o ∧
      ((∃ v, i = .call x a (.router (.addVerifier s v)) ∧ net.entry a s = none ∧
          net'.entry a s = some (.active v)) ∨
        ∃ e, i = .call x a (.router (.removeVerifier s)) ∧ net.entry a s = some e ∧
          net'.entry a s = some .tombstone)) := by
  cases h with
  | deploy b c hfree =>
      refine .inl ⟨entry_update_other (by rw [Net.entry, hfree]) fun r hr => ?_, nofun, nofun⟩
      cases c <;> cases hr
      rfl
  | emergencyStop x b c e e' he _ =>
      exact .inl ⟨entry_update_other (by rw [Net.entry, he]) nofun, nofun, nofun⟩
  | router x b c r r' hr he =>
      by_cases hab : a = b
      · subst hab
        rw [entry_update_self, entry_of_router hr]
        rcases he.entry s with ⟨h, hadd, hrem⟩ | ⟨o, ho, ⟨v, rfl, h, h'⟩ | ⟨e, rfl, h, h'⟩⟩
        · refine .inl ⟨h, ?_, ?_⟩
          · rintro y v ⟨⟩
            exact hadd v rfl
          · rintro y ⟨⟩
            exact hrem rfl
        · exact .inr ⟨x, r, o, hr, ho, .inl ⟨v, rfl, h, h'⟩⟩
        · exact .inr ⟨x, r, o, hr, ho, .inr ⟨e, rfl, h, h'⟩⟩
      · refine .inl ⟨entry_update_of_ne hab, ?_, ?_⟩
        · rintro y v ⟨⟩
          exact hab rfl
        · rintro y ⟨⟩
          exact hab rfl

/-- What a turn does to one entry: nothing, or what the router's owner has called for. -/
theorem entry_turn (P : Chain O) (net : Net O) (i : Input) (a : Address) (s : BytesN 4) :
    let t := Machine.turn P.step net i
    (t.after.entry a s = t.before.entry a s ∧ (∀ v, ¬ Adds a s v t) ∧ ¬ Removes a s t) ∨
    (RouterOwned P a t ∧
      ((∃ v, Adds a s v t ∧ ¬ Removes a s t ∧ t.before.entry a s = none ∧
          t.after.entry a s = some (.active v)) ∨
        ∃ e, Removes a s t ∧ t.before.entry a s = some e ∧ t.after.entry a s = some .tombstone)) := by
  intro t
  cases hout : (P.step net i).1 with
  | error f =>
      have hno : ∀ c, ¬ Calls a c t := by
        rintro c ⟨x, ret, -, ho⟩
        cases hout.symm.trans ho
      exact .inl ⟨congrArg (Net.entry · a s) (step_error hout), fun v => hno _, hno _⟩
  | ok ret =>
      have heff : Effect P net i t.after := step_effect (Prod.ext hout rfl)
      have hcalls : ∀ x c, i = .call x a c → Calls a c t := fun x c hi => ⟨x, ret, hi, hout⟩
      rcases heff.entry a s with ⟨h, hadd, hrem⟩ | ⟨x, r, o, hr, ⟨ho, hauth⟩, h⟩
      · exact .inl ⟨h, fun v ⟨x, _, hi, _⟩ => hadd x v hi, fun ⟨x, _, hi, _⟩ => hrem x hi⟩
      · rcases h with ⟨v, hi, h, h'⟩ | ⟨e, hi, h, h'⟩
        · refine .inr ⟨⟨x, _, r, o, hi, hr, ho, hauth⟩, .inl ⟨v, hcalls x _ hi, ?_, h, h'⟩⟩
          rintro ⟨y, _, hy, -⟩
          cases hi.symm.trans hy
        · exact .inr ⟨⟨x, _, r, o, hi, hr, ho, hauth⟩, .inr ⟨e, hcalls x _ hi, h, h'⟩⟩

/-! ## The pause in one turn -/

/-- What a stop has behind it: the owner, or a proof of the zero claim that the wrapped verifier accepts. -/
def Justified (P : Chain O) (net : Net O) (x : Context) (a : Address) (e : EmergencyStop O)
    (c : EmergencyStop.Call) : Prop :=
  (∃ o, P.library.getOwner e.ownable = some o ∧ x.authorized o = true) ∨
    ∃ r v, c = .estopWithReceipt r ∧ r.claimDigest = zeroDigest ∧ e.verifier = some v ∧
      P.query x.foreign net P.depthLimit [a] v (.verifyIntegrity r) = .ok ()

theorem EmergencyStop.Effect.paused {x : Context} {a : Address} {e e' : EmergencyStop O}
    {c : EmergencyStop.Call} (h : EmergencyStop.Effect P.library (P.env x net a) e c e') :
    (c.stops = false ∧ e'.paused = e.paused) ∨
      (c.stops = true ∧ e'.paused = true ∧ Justified P net x a e c) := by
  cases h with
  | estop o ho => exact .inr ⟨rfl, rfl, .inl ⟨o, ho⟩⟩
  | pause o ho => exact .inr ⟨rfl, rfl, .inl ⟨o, ho⟩⟩
  | estopWithReceipt r hr =>
      obtain ⟨-, hzero, v, hv, hok⟩ := hr
      exact .inr ⟨rfl, rfl, .inr ⟨r, v, rfl, hzero, hv, hok⟩⟩
  | ownable c o st _ _ => exact .inl ⟨rfl, rfl⟩
  | read c h₁ h₂ h₃ _ =>
      refine .inl ⟨?_, rfl⟩
      cases c <;> first | rfl | exact absurd rfl h₁ | exact absurd rfl (h₂ _) | exact absurd rfl (h₃ _)

theorem stopped_of_emergencyStop {a : Address} {e : EmergencyStop O}
    (h : net a = some (.emergencyStop e)) : net.stopped a ↔ e.paused = true := by
  constructor
  · rintro ⟨e', he, hp⟩
    cases h.symm.trans he
    exact hp
  · exact fun hp => ⟨e, h, hp⟩

theorem stopped_update_other {a b : Address} {i : Instance O} (h : ¬ net.stopped b)
    (hi : ∀ e, i = .emergencyStop e → e.paused = false) :
    Net.stopped (Function.update net b (some i)) a ↔ net.stopped a := by
  by_cases hab : a = b
  · subst hab
    refine iff_of_false ?_ h
    rintro ⟨e, he, hp⟩
    rw [Function.update_self] at he
    rw [hi e (Option.some.inj he)] at hp
    cases hp
  · unfold Net.stopped
    rw [Function.update_of_ne hab]

/-- What an input does to the pause of one contract. -/
theorem Effect.stopped {i : Input} (h : Effect P net i net') (a : Address) :
    ((net'.stopped a ↔ net.stopped a) ∧
      ∀ x c, i = .call x a (.emergencyStop c) → c.stops = false) ∨
    (net'.stopped a ∧ ∃ x c e, i = .call x a (.emergencyStop c) ∧ c.stops = true ∧
      net a = some (.emergencyStop e) ∧ Justified P net x a e c) := by
  cases h with
  | deploy b c hfree =>
      refine .inl ⟨stopped_update_other ?_ fun e he => ?_, nofun⟩
      · rintro ⟨e, he, -⟩
        cases hfree.symm.trans he
      · cases c <;> cases he
        rfl
  | router x b c r r' hr _ =>
      refine .inl ⟨stopped_update_other ?_ nofun, nofun⟩
      rintro ⟨e, he, -⟩
      cases hr.symm.trans he
  | emergencyStop x b c e e' he heff =>
      by_cases hab : a = b
      · subst hab
        have hnow : Net.stopped (Function.update net a (some (.emergencyStop e'))) a ↔
            e'.paused = true := stopped_of_emergencyStop (Function.update_self _ _ _)
        rcases heff.paused with ⟨hc, hp⟩ | ⟨hc, hp, hj⟩
        · refine .inl ⟨?_, ?_⟩
          · rw [hnow, stopped_of_emergencyStop he, hp]
          · rintro y d ⟨⟩
            exact hc
        · exact .inr ⟨hnow.mpr hp, x, c, e, rfl, hc, he, hj⟩
      · refine .inl ⟨?_, ?_⟩
        · unfold Net.stopped
          rw [Function.update_of_ne hab]
        · rintro y d ⟨⟩
          exact absurd rfl hab

def StopJustified (P : Chain O) (a : Address) (t : Turn O) : Prop :=
  ∃ x c e, t.input = .call x a (.emergencyStop c) ∧ t.before a = some (.emergencyStop e) ∧
    Justified P t.before x a e c

/-- A turn stops the contract at `a` with a justification, or leaves it as stopped as it was. -/
theorem stopped_turn (P : Chain O) (net : Net O) (i : Input) (a : Address) :
    let t := Machine.turn P.step net i
    ((t.after.stopped a ↔ t.before.stopped a) ∧ ¬ Stops a t) ∨
    (t.after.stopped a ∧ Stops a t ∧ StopJustified P a t) := by
  intro t
  cases hout : (P.step net i).1 with
  | error f =>
      refine .inl ⟨iff_of_eq (congrArg (Net.stopped · a) (step_error hout)), ?_⟩
      rintro ⟨c, -, x, ret, -, ho⟩
      cases hout.symm.trans ho
  | ok ret =>
      have heff : Effect P net i t.after := step_effect (Prod.ext hout rfl)
      rcases heff.stopped a with ⟨h, hno⟩ | ⟨h, x, c, e, hi, hc, he, hj⟩
      · refine .inl ⟨h, ?_⟩
        rintro ⟨c, hc, x, _, hi, -⟩
        rw [hno x c hi] at hc
        cases hc
      · exact .inr ⟨h, ⟨c, hc, x, ret, hi, hout⟩, x, c, e, hi, he, hj⟩

end ZkUnderwrite.Verifier
