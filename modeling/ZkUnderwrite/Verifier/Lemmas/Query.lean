import ZkUnderwrite.Verifier.Lemmas.Network

/-!
# The way of a query

A query that is answered has come along a route: each contract on it passes the query on to the next,
and the last one answers it. The route visits no contract twice.
-/

namespace ZkUnderwrite.Verifier
open ByteString Transaction Contract

variable {O : Type} {P : Chain O} {net : Net O} {foreign : Client} {q : Query}

theorem getVerifier_eq_ok {r : Router O} {s : BytesN 4} {v : Address} :
    r.getVerifier s = .ok v ↔ r.verifiers s = some (.active v) := by
  unfold Router.getVerifier
  split <;> simp_all

theorem getVerifierFromSeal_eq_ok {r : Router O} {b : Bytes} {v : Address} :
    r.getVerifierFromSeal b = .ok v ↔
      ∃ s, Router.selectorFromSeal b = .ok s ∧ r.verifiers s = some (.active v) := by
  unfold Router.getVerifierFromSeal
  rw [bind_eq_ok]
  exact exists_congr fun s => and_congr_right fun _ => getVerifier_eq_ok

theorem getVerifierFromSeal_eq_error {r : Router O} {b : Bytes} {e : VerifierError} :
    r.getVerifierFromSeal b = .error e ↔ (b.length < 4 ∧ e = .malformedSeal) ∨
      ∃ s, Router.selectorFromSeal b = .ok s ∧ ((r.verifiers s = none ∧ e = .selectorUnknown) ∨
        (r.verifiers s = some .tombstone ∧ e = .selectorRemoved)) := by
  unfold Router.getVerifierFromSeal
  by_cases hlen : b.length < 4
  · have hsel : Router.selectorFromSeal b = .error .malformedSeal := dif_pos hlen
    simp [hsel, hlen, bind, Except.bind, eq_comm]
  · obtain ⟨s, hsel⟩ : ∃ s, Router.selectorFromSeal b = .ok s := ⟨_, dif_neg hlen⟩
    simp only [hsel, hlen, false_and, false_or, Except.ok.injEq, exists_eq_left']
    change r.getVerifier s = .error e ↔ _
    unfold Router.getVerifier
    rcases r.verifiers s with _ | ⟨v⟩ | _ <;> simp [eq_comm]

/-- A router hands a query on to the verifier under the selector of its seal, whatever answers there, or
refuses it. -/
theorem forward_of_selector (r : Router O) {s : BytesN 4}
    (hs : Router.selectorFromSeal q.sealBytes = .ok s) :
    (∃ v, r.verifiers s = some (.active v) ∧ ∀ client, r.forward client q = client v q) ∨
      (∀ v, r.verifiers s ≠ some (.active v)) ∧
        ∃ e, ∀ client, r.forward client q = .error (.error e) := by
  cases hv : r.getVerifierFromSeal q.sealBytes with
  | ok v =>
      obtain ⟨s', hs', hv'⟩ := getVerifierFromSeal_eq_ok.mp hv
      cases hs.symm.trans hs'
      refine .inl ⟨v, hv', fun client => ?_⟩
      rw [Router.forward, hv]
      rfl
  | error e =>
      refine .inr ⟨fun v hv' => ?_, e, fun client => ?_⟩
      · cases hv.symm.trans (getVerifierFromSeal_eq_ok.mpr ⟨s, hs, hv'⟩)
      · rw [Router.forward, hv]
        rfl

/-! ## Routes -/

/-- The contract at `a` passes the query on to the one at `b`. -/
def Passes (net : Net O) (q : Query) (a b : Address) : Prop :=
  match net a with
  | some (.router r) =>
      ∃ s, Router.selectorFromSeal q.sealBytes = .ok s ∧ r.verifiers s = some (.active b)
  | some (.emergencyStop e) => e.paused = false ∧ e.verifier = some b
  | _ => False

/-- The contract at `a` decides the query itself, or refuses to pass it on. -/
def Answers (P : Chain O) (foreign : Client) (net : Net O) (q : Query) (a : Address)
    (out : Except Fault Unit) : Prop :=
  match net a with
  | some (.router r) => ∃ e, r.getVerifierFromSeal q.sealBytes = .error e ∧ .error (.error e) = out
  | some (.emergencyStop e) =>
      (e.paused = true ∧ .error .enforcedPause = out) ∨
        (e.paused = false ∧ e.verifier = none ∧ .error (.emergencyStop .verifierNotSet) = out)
  | some (.groth16 v) => v.answer P.bn254 P.sha256 q = out
  | some (.mock m) => m.answer P.sha256 P.keccak256 q = out
  | none => foreign a q = out

/-- The contract at `a` accepts the query itself. -/
def Accepts (P : Chain O) (foreign : Client) (net : Net O) (q : Query) (a : Address) : Prop :=
  match net a with
  | some (.groth16 v) => v.answer P.bn254 P.sha256 q = .ok ()
  | some (.mock m) => m.answer P.sha256 P.keccak256 q = .ok ()
  | none => foreign a q = .ok ()
  | _ => False

theorem passes_router {a b : Address} {r : Router O} (h : net a = some (.router r)) :
    Passes net q a b ↔
      ∃ s, Router.selectorFromSeal q.sealBytes = .ok s ∧ r.verifiers s = some (.active b) := by
  unfold Passes
  rw [h]

theorem passes_emergencyStop {a b : Address} {e : EmergencyStop O}
    (h : net a = some (.emergencyStop e)) :
    Passes net q a b ↔ e.paused = false ∧ e.verifier = some b := by
  unfold Passes
  rw [h]

theorem not_accepts_router {a : Address} {r : Router O} (h : net a = some (.router r)) :
    ¬ Accepts P foreign net q a := by
  unfold Accepts
  rw [h]
  exact id

theorem not_accepts_emergencyStop {a : Address} {e : EmergencyStop O}
    (h : net a = some (.emergencyStop e)) : ¬ Accepts P foreign net q a := by
  unfold Accepts
  rw [h]
  exact id

theorem answers_ok {a : Address} :
    Answers P foreign net q a (.ok ()) ↔ Accepts P foreign net q a := by
  unfold Answers Accepts
  rcases net a with _ | ⟨r⟩ | ⟨e⟩ | ⟨v⟩ | ⟨m⟩ <;> simp

/-! ## One call -/

/-- A contract that is not running yet passes the query on to one other, or answers it. -/
theorem query_succ {depth : Nat} {stack : List Address} {a : Address} (ha : a ∉ stack) :
    (∃ b, (∀ b', Passes net q a b' ↔ b' = b) ∧ (∀ out, ¬ Answers P foreign net q a out) ∧
      P.query foreign net (depth + 1) stack a q = P.query foreign net depth (a :: stack) b q) ∨
    ((∀ b, ¬ Passes net q a b) ∧ ∀ out, Answers P foreign net q a out ↔
      P.query foreign net (depth + 1) stack a q = out) := by
  rw [Chain.query, if_neg ha]
  unfold Passes Answers
  rcases net a with _ | ⟨r⟩ | ⟨e⟩ | ⟨v⟩ | ⟨m⟩
  · exact .inr ⟨fun _ => id, fun _ => Iff.rfl⟩
  · simp only [← getVerifierFromSeal_eq_ok, Router.forward]
    cases r.getVerifierFromSeal q.sealBytes with
    | error e => exact .inr ⟨fun b => by simp, fun out => by simp [Except.mapError, bind, Except.bind]⟩
    | ok v =>
        refine .inl ⟨v, fun b => ?_, fun out => by simp, rfl⟩
        rw [Except.ok.injEq]
        exact eq_comm
  · simp only [EmergencyStop.forward, EmergencyStop.whenNotPaused, EmergencyStop.getVerifier]
    cases e.paused with
    | true => exact .inr ⟨fun b => by simp, fun out => by simp [bind, Except.bind]⟩
    | false =>
        cases e.verifier with
        | none => exact .inr ⟨fun b => by simp, fun out => by simp [bind, Except.bind]⟩
        | some v => exact .inl ⟨v, fun b => by simp [eq_comm], fun out => by simp, rfl⟩
  · exact .inr ⟨fun _ => id, fun _ => Iff.rfl⟩
  · exact .inr ⟨fun _ => id, fun _ => Iff.rfl⟩

/-! ## The whole way -/

/-- `path` leads from `a` to `c` along `R`. -/
inductive Route (R : Address → Address → Prop) : Address → List Address → Address → Prop
  | nil (a : Address) : Route R a [] a
  | cons {a b c : Address} {path : List Address} (passes : R a b) (rest : Route R b path c) :
      Route R a (a :: path) c

/-- How a query ends at `c`: too deep, at a contract that is running already, or with an answer. -/
inductive Ends (decides : Address → Except Fault Unit → Prop) (running : Prop) (c : Address) :
    Nat → Except Fault Unit → Prop
  | depth : Ends decides running c 0 (.error .depth)
  | reentry {left : Nat} (again : running) : Ends decides running c (left + 1) (.error .reentry)
  | answer {left : Nat} {out : Except Fault Unit} (fresh : ¬ running) (decided : decides c out) :
      Ends decides running c (left + 1) out

/-- The outcome of a query that goes from contract to contract along `R`, visiting none twice. -/
def Comes (R : Address → Address → Prop) (decides : Address → Except Fault Unit → Prop) (depth : Nat)
    (stack : List Address) (a : Address) (out : Except Fault Unit) : Prop :=
  ∃ path c left, Route R a path c ∧ path.length + left = depth ∧ path.Nodup ∧
    (∀ x ∈ path, x ∉ stack) ∧ Ends decides (c ∈ path ∨ c ∈ stack) c left out

section
variable {R : Address → Address → Prop} {decides : Address → Except Fault Unit → Prop} {depth : Nat}
  {stack : List Address} {a : Address} {out : Except Fault Unit}

theorem comes_zero : Comes R decides 0 stack a out ↔ .error .depth = out := by
  constructor
  · rintro ⟨path, c, left, -, hlen, -, -, hends⟩
    cases Nat.eq_zero_of_add_eq_zero_left hlen
    cases hends
    rfl
  · rintro rfl
    exact ⟨[], a, 0, .nil a, rfl, List.nodup_nil, List.forall_mem_nil _, .depth⟩

theorem comes_of_running (ha : a ∈ stack) :
    Comes R decides (depth + 1) stack a out ↔ .error .reentry = out := by
  constructor
  · rintro ⟨path, c, left, hroute, hlen, -, hstack, hends⟩
    cases hroute with
    | cons _ _ => exact absurd ha (hstack a List.mem_cons_self)
    | nil =>
        cases hends with
        | depth => cases hlen
        | reentry _ => rfl
        | answer hfresh _ => exact absurd (.inr ha) hfresh
  · rintro rfl
    exact ⟨[], a, depth + 1, .nil a, Nat.zero_add _, List.nodup_nil, List.forall_mem_nil _,
      .reentry (.inr ha)⟩

/-- A contract that passes nothing on decides alone. -/
theorem comes_of_decides (ha : a ∉ stack) (hR : ∀ b, ¬ R a b) :
    Comes R decides (depth + 1) stack a out ↔ decides a out := by
  constructor
  · rintro ⟨path, c, left, hroute, hlen, -, -, hends⟩
    cases hroute with
    | cons hpass _ => exact absurd hpass (hR _)
    | nil =>
        cases hends with
        | depth => cases hlen
        | reentry hagain => exact absurd hagain (by simp [ha])
        | answer _ hanswer => exact hanswer
  · intro h
    exact ⟨[], a, depth + 1, .nil a, Nat.zero_add _, List.nodup_nil, List.forall_mem_nil _,
      .answer (by simp [ha]) h⟩

/-- A contract that passes the query on has the outcome of the next one, with itself running. -/
theorem comes_of_passes {b : Address} (ha : a ∉ stack) (hR : ∀ b', R a b' ↔ b' = b)
    (hdec : ∀ out, ¬ decides a out) :
    Comes R decides (depth + 1) stack a out ↔ Comes R decides depth (a :: stack) b out := by
  constructor
  · rintro ⟨path, c, left, hroute, hlen, hnodup, hstack, hends⟩
    cases hroute with
    | nil =>
        cases hends with
        | depth => cases hlen
        | reentry hagain => exact absurd hagain (by simp [ha])
        | answer _ hanswer => exact absurd hanswer (hdec _)
    | @cons _ b' _ path hpass hrest =>
        cases (hR b').mp hpass
        obtain ⟨hmem, hnodup⟩ := List.nodup_cons.mp hnodup
        refine ⟨path, c, left, hrest, ?_, hnodup, fun x hx h => ?_, ?_⟩
        · rw [List.length_cons] at hlen
          omega
        · rcases List.mem_cons.mp h with rfl | h
          · exact hmem hx
          · exact hstack x (List.mem_cons_of_mem _ hx) h
        · rwa [List.mem_cons, or_left_comm, ← or_assoc, ← List.mem_cons]
  · rintro ⟨path, c, left, hroute, hlen, hnodup, hstack, hends⟩
    refine ⟨a :: path, c, left, .cons ((hR b).mpr rfl) hroute, ?_, ?_, fun x hx => ?_, ?_⟩
    · rw [List.length_cons]
      omega
    · exact List.nodup_cons.mpr ⟨fun h => hstack a h List.mem_cons_self, hnodup⟩
    · rcases List.mem_cons.mp hx with rfl | hx
      · exact ha
      · exact fun h => hstack x hx (List.mem_cons_of_mem _ h)
    · rwa [List.mem_cons, or_left_comm, ← or_assoc, ← List.mem_cons] at hends

end

/-- The outcome of a query: contracts pass it on until one of them answers. -/
theorem query_eq {depth : Nat} {stack : List Address} {a : Address} {out : Except Fault Unit} :
    P.query foreign net depth stack a q = out ↔
      Comes (Passes net q) (Answers P foreign net q) depth stack a out := by
  induction depth generalizing stack a with
  | zero => exact comes_zero.symm
  | succ depth ih =>
      by_cases ha : a ∈ stack
      · rw [comes_of_running ha, Chain.query, if_pos ha]
      · rcases @query_succ _ P net foreign q depth stack a ha with
          ⟨b, hpass, hdec, hq⟩ | ⟨hpass, hdec⟩
        · rw [hq, ih, comes_of_passes ha hpass hdec]
        · rw [comes_of_decides ha hpass, hdec]

/-- A query succeeds exactly when a route that visits no contract twice, and none that is running
already, leads it within the depth limit to a contract that accepts it. -/
theorem query_eq_ok {depth : Nat} {stack : List Address} {a : Address} :
    P.query foreign net depth stack a q = .ok () ↔
      ∃ path c, Route (Passes net q) a path c ∧ Accepts P foreign net q c ∧ path.length < depth ∧
        (path ++ [c]).Nodup ∧ ∀ x ∈ path ++ [c], x ∉ stack := by
  rw [query_eq]
  constructor
  · rintro ⟨path, c, left, hroute, hlen, hnodup, hstack, hends⟩
    generalize hout : Except.ok () = out at hends
    cases hends with
    | depth | reentry _ => cases hout
    | answer hfresh hanswer =>
        obtain ⟨hpath, hc⟩ := not_or.mp hfresh
        refine ⟨path, c, hroute, answers_ok.mp (hout ▸ hanswer), by omega, ?_, fun x hx => ?_⟩
        · exact List.nodup_append'.mpr ⟨hnodup, List.nodup_singleton c, by simpa using hpath⟩
        · rcases List.mem_append.mp hx with hx | hx
          · exact hstack x hx
          · cases List.mem_singleton.mp hx
            exact hc
  · rintro ⟨path, c, hroute, hacc, hlen, hnodup, hstack⟩
    obtain ⟨left, rfl⟩ := Nat.exists_eq_add_of_lt hlen
    refine ⟨path, c, left + 1, hroute, (Nat.add_assoc ..).symm, ?_, fun x hx => ?_, .answer ?_ ?_⟩
    · exact (List.nodup_append'.mp hnodup).1
    · exact hstack x (List.mem_append_left _ hx)
    · have hpath := (List.nodup_append'.mp hnodup).2.2
      exact not_or.mpr ⟨by simpa using hpath, hstack c List.mem_concat_self⟩
    · exact answers_ok.mpr hacc

end ZkUnderwrite.Verifier
