import ZkUnderwrite.Verifier.Lemmas.Network

/-!
# Entries and pauses along a run

Each is a function of the calls that have succeeded so far.
-/

namespace ZkUnderwrite.Verifier
open ByteString Contract

variable {O : Type} {P : Chain O}

/-! ## The contract at an address -/

theorem kind_of_becomes {c : Creation} {i : Instance O} (h : Instance.Becomes (P.create c) i) :
    match c with
    | .router _ => ∃ r, i = .router r
    | .emergencyStop v _ => ∃ e, i = .emergencyStop e ∧ e.verifier = some v
    | .groth16 v => i = .groth16 v
    | .mock s => i = .mock (MockVerifier.constructor s) := by
  cases c with
  | router owner =>
      cases i with
      | router r => exact ⟨r, rfl⟩
      | _ => exact h.elim
  | emergencyStop v owner =>
      cases i with
      | emergencyStop e => exact ⟨e, rfl, h.1⟩
      | _ => exact h.elim
  | groth16 v =>
      cases i with
      | groth16 v' => exact congrArg Instance.groth16 h
      | _ => exact h.elim
  | mock s =>
      cases i with
      | mock m => exact congrArg Instance.mock h
      | _ => exact h.elim

theorem deploys_turn (P : Chain O) (net : Net O) (i : Input) (a : Address) :
    let t := Machine.turn P.step net i
    ((∀ c, ¬ Deploys a c t) ∧ (t.after a = none ↔ t.before a = none)) ∨
      ∃ c, t.before a = none ∧ t.after a = some (P.create c) ∧ ∀ c', Deploys a c' t ↔ c' = c := by
  intro t
  have hturn : t = ⟨net, i, (P.step net i).1, (P.step net i).2⟩ := rfl
  rw [hturn]
  cases hout : (P.step net i).1 with
  | error f =>
      rw [step_error hout]
      refine .inl ⟨?_, Iff.rfl⟩
      rintro c ⟨ret, -, ⟨⟩⟩
  | ok ret =>
      have heff : Effect P net i (P.step net i).2 := step_effect (Prod.ext hout rfl)
      generalize (P.step net i).2 = net' at heff
      cases heff with
      | deploy b c free =>
          by_cases hab : a = b
          · subst hab
            refine .inr ⟨c, free, Function.update_self _ _ _, fun c' => ?_⟩
            constructor
            · rintro ⟨_, ⟨⟩, -⟩
              rfl
            · rintro rfl
              exact ⟨ret, rfl, rfl⟩
          · refine .inl ⟨?_, iff_of_eq (congrArg (· = none) (Function.update_of_ne hab _ _))⟩
            rintro c' ⟨_, ⟨⟩, -⟩
            exact hab rfl
      | router x b c r r' here _ | emergencyStop x b c e e' here _ =>
          refine .inl ⟨?_, ?_⟩
          · rintro c' ⟨_, ⟨⟩, -⟩
          · dsimp only
            by_cases hab : a = b
            · subst hab
              rw [Function.update_self, here]
              exact iff_of_false (Option.some_ne_none _) (Option.some_ne_none _)
            · rw [Function.update_of_ne hab]

/-- The contract at an address after the turns `ts`: the one that they deploy there. -/
inductive Deployed (P : Chain O) (a : Address) (ts : List (Turn O)) : Option (Instance O) → Prop
  | free (h : ∀ t ∈ ts, ∀ c, ¬ Deploys a c t) : Deployed P a ts none
  | taken (c : Creation) (i : Instance O) (becomes : Instance.Becomes (P.create c) i)
      (h : ∀ c', (∃ t ∈ ts, Deploys a c' t) ↔ c' = c) : Deployed P a ts (some i)

theorem Deployed.concat {a : Address} {ts : List (Turn O)} {net : Net O} {i : Input}
    (h : Deployed P a ts (net a)) :
    Deployed P a (ts ++ [Machine.turn P.step net i]) ((P.step net i).2 a) := by
  have hmem : ∀ c, (∃ t ∈ ts ++ [Machine.turn P.step net i], Deploys a c t) ↔
      (∃ t ∈ ts, Deploys a c t) ∨ Deploys a c (Machine.turn P.step net i) := by
    intro c
    simp only [List.mem_append, List.mem_singleton, or_and_right, exists_or, exists_eq_left]
  generalize hnet : net a = old at h
  rcases deploys_turn P net i a with ⟨hno, hnone⟩ | ⟨c, hfree, hnew, hc⟩
  · cases h with
    | free h =>
        rw [show (P.step net i).2 a = none from hnone.mpr hnet]
        refine .free fun t ht c hd => ?_
        rcases (hmem c).mp ⟨t, ht, hd⟩ with ⟨u, hu, hd⟩ | hd
        · exact h u hu c hd
        · exact hno c hd
    | taken c j hb h =>
        obtain ⟨j', hj', hb'⟩ := step_becomes net i a j hnet
        rw [hj']
        refine .taken c j' (hb.trans _ _ _ hb') fun c' => ?_
        rw [hmem, h]
        exact or_iff_left (hno c')
  · cases hnet.symm.trans hfree
    rw [show (P.step net i).2 a = some (P.create c) from hnew]
    cases h with
    | free h =>
        refine .taken c _ (Instance.Becomes.refl _) fun c' => ?_
        rw [hmem, hc]
        exact or_iff_right fun ⟨t, ht, hd⟩ => h t ht c' hd

theorem deployed_run (is : List Input) (a : Address) : Deployed P a (history P is) (run P is a) := by
  have h₀ : Deployed P a [] ((Net.empty : Net O) a) := .free fun t ht => nomatch ht
  exact Machine.history_induction (J := fun ts (net : Net O) => Deployed P a ts (net a)) h₀
    (fun ts net i h => h.concat) is

/-- What was deployed at an address is still there, advanced. -/
theorem kind_of_deploys {is : List Input} {a : Address} {c : Creation}
    (h : ∃ t ∈ history P is, Deploys a c t) :
    match c with
    | .router _ => ∃ r, run P is a = some (.router r)
    | .emergencyStop v _ => ∃ e, run P is a = some (.emergencyStop e) ∧ e.verifier = some v
    | .groth16 v => run P is a = some (.groth16 v)
    | .mock s => run P is a = some (.mock (MockVerifier.constructor s)) := by
  have hdep := deployed_run (P := P) is a
  generalize run P is a = i at hdep ⊢
  cases hdep with
  | free hfree =>
      obtain ⟨t, ht, hd⟩ := h
      exact absurd hd (hfree t ht c)
  | taken c' i hb hc =>
      cases (hc c).mp h
      have hkind := kind_of_becomes hb
      cases c with
      | router _ | emergencyStop _ _ => simpa using hkind
      | groth16 _ | mock _ => exact congrArg some hkind

/-! ## The life of a selector -/

/-- The entry that the turns `ts` leave under the selector `s` of the router at `a`. -/
inductive Lifecycle (a : Address) (s : BytesN 4) (ts : List (Turn O)) : Option VerifierEntry → Prop
  | unset (added : ∀ t ∈ ts, ∀ v, ¬ Adds a s v t) (removed : ∀ t ∈ ts, ¬ Removes a s t) :
      Lifecycle a s ts none
  | active (v : Address) (added : ∃ t ∈ ts, Adds a s v t)
      (only : ∀ t ∈ ts, ∀ v', Adds a s v' t → v' = v) (removed : ∀ t ∈ ts, ¬ Removes a s t) :
      Lifecycle a s ts (some (.active v))
  | removed (removed : ∃ t ∈ ts, Removes a s t) : Lifecycle a s ts (some .tombstone)

theorem Lifecycle.concat {a : Address} {s : BytesN 4} {ts : List (Turn O)} {net : Net O} {i : Input}
    (h : Lifecycle a s ts (net.entry a s)) :
    Lifecycle a s (ts ++ [Machine.turn P.step net i]) ((P.step net i).2.entry a s) := by
  have hmem : ∀ {p : Turn O → Prop}, (∀ t ∈ ts, p t) → p (Machine.turn P.step net i) →
      ∀ t ∈ ts ++ [Machine.turn P.step net i], p t := by
    intro p hp hi t ht
    rcases List.mem_append.mp ht with ht | ht
    · exact hp t ht
    · cases List.mem_singleton.mp ht
      exact hi
  have hlast := List.mem_append_right ts (List.mem_singleton.mpr (Eq.refl (Machine.turn P.step net i)))
  generalize hent : net.entry a s = e at h
  rcases entry_turn P net i a s with ⟨he, hadd, hrem⟩ | ⟨-, ⟨v, hadd, hrem, hb, he⟩ | ⟨e', hrem, hb, he⟩⟩
  · rw [show (P.step net i).2.entry a s = e from he.trans hent]
    cases h with
    | unset h₁ h₂ => exact .unset (hmem h₁ hadd) (hmem h₂ hrem)
    | active v h₁ h₂ h₃ =>
        obtain ⟨t, ht, hv⟩ := h₁
        exact .active v ⟨t, List.mem_append_left _ ht, hv⟩
          (hmem h₂ fun w hw => absurd hw (hadd w)) (hmem h₃ hrem)
    | removed h₁ =>
        obtain ⟨t, ht, hr⟩ := h₁
        exact .removed ⟨t, List.mem_append_left _ ht, hr⟩
  · rw [show (P.step net i).2.entry a s = _ from he]
    cases hent.symm.trans hb
    cases h with
    | unset h₁ h₂ =>
        refine .active v ⟨_, hlast, hadd⟩ (hmem (fun t ht w hw => absurd hw (h₁ t ht w)) ?_)
          (hmem h₂ hrem)
        rintro w ⟨x, _, hx, -⟩
        obtain ⟨y, _, hy, -⟩ := hadd
        cases hx.symm.trans hy
        rfl
  · rw [show (P.step net i).2.entry a s = _ from he]
    exact .removed ⟨_, hlast, hrem⟩

theorem lifecycle_run (is : List Input) (a : Address) (s : BytesN 4) :
    Lifecycle a s (history P is) ((run P is).entry a s) := by
  have h₀ : Lifecycle (O := O) a s [] ((Net.empty : Net O).entry a s) :=
    .unset (fun t ht => nomatch ht) (fun t ht => nomatch ht)
  exact Machine.history_induction (J := fun ts (net : Net O) => Lifecycle a s ts (net.entry a s)) h₀
    (fun ts net i h => h.concat) is

section
variable {a : Address} {s : BytesN 4} {ts : List (Turn O)} {e : Option VerifierEntry}

theorem Lifecycle.unset_iff (h : Lifecycle a s ts e) :
    e = none ↔ (∀ t ∈ ts, ∀ v, ¬ Adds a s v t) ∧ ∀ t ∈ ts, ¬ Removes a s t := by
  cases h with
  | unset hadd hrem => exact iff_of_true rfl ⟨hadd, hrem⟩
  | active v hadd _ _ =>
      obtain ⟨t, ht, hv⟩ := hadd
      exact iff_of_false (Option.some_ne_none _) fun h => h.1 t ht v hv
  | removed hrem =>
      obtain ⟨t, ht, hr⟩ := hrem
      exact iff_of_false (Option.some_ne_none _) fun h => h.2 t ht hr

theorem Lifecycle.active_iff (h : Lifecycle a s ts e) {v : Address} :
    e = some (.active v) ↔ (∃ t ∈ ts, Adds a s v t) ∧ ∀ t ∈ ts, ¬ Removes a s t := by
  cases h with
  | unset hadd _ => exact iff_of_false (by rintro ⟨⟩) fun ⟨⟨t, ht, hv⟩, _⟩ => hadd t ht v hv
  | active w hadd honly hrem =>
      constructor
      · rintro ⟨⟩
        exact ⟨hadd, hrem⟩
      · rintro ⟨⟨t, ht, hv⟩, -⟩
        rw [honly t ht v hv]
  | removed hrem =>
      obtain ⟨t, ht, hr⟩ := hrem
      exact iff_of_false (by rintro ⟨⟩) fun h => h.2 t ht hr

theorem Lifecycle.removed_iff (h : Lifecycle a s ts e) :
    e = some .tombstone ↔ ∃ t ∈ ts, Removes a s t := by
  cases h with
  | unset _ hrem | active _ _ _ hrem =>
      exact iff_of_false (by rintro ⟨⟩) fun ⟨t, ht, hr⟩ => hrem t ht hr
  | removed hrem => exact iff_of_true rfl hrem

end

/-! ## The emergency stop -/

theorem stopped_run (is : List Input) (a : Address) :
    (run P is).stopped a ↔ ∃ t ∈ history P is, Stops a t := by
  refine Machine.history_induction (J := fun ts (net : Net O) => net.stopped a ↔ ∃ t ∈ ts, Stops a t)
    ?_ (fun ts net i h => ?_) is
  · refine iff_of_false ?_ ?_
    · rintro ⟨e, he, -⟩
      cases he
    · rintro ⟨t, ht, -⟩
      cases ht
  · simp only [List.mem_append, List.mem_singleton, or_and_right, exists_or, exists_eq_left, ← h]
    rcases stopped_turn P net i a with ⟨hs, hno⟩ | ⟨hs, hstop, -⟩
    · rw [show (P.step net i).2.stopped a ↔ _ from hs]
      exact ⟨.inl, fun h => h.resolve_right hno⟩
    · exact iff_of_true hs (.inr hstop)

theorem running_of_emergencyStop {is : List Input} {a : Address} {e : EmergencyStop O}
    (hn : run P is a = some (.emergencyStop e)) :
    e.paused = false ↔ ∀ t ∈ history P is, ¬ Stops a t := by
  rw [← Bool.not_eq_true, ← stopped_of_emergencyStop hn, stopped_run]
  simp only [not_exists, not_and]

end ZkUnderwrite.Verifier
