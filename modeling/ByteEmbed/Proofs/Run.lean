/-!
# ByteEmbed.Proofs.Run — running a computation that may fail and keeps its state when it does.

`runOn` is the outcome of a computation together with the state it leaves.  `Always` speaks of the
state alone, whatever the outcome is; for a relation that composes it is carried through a sequence
of computations by `Always.bind`.
-/

namespace ByteEmbed

variable {ε σ α β : Type}

theorem eq_ok_of_toOption {outcome : Except ε α} {a : α} (h : outcome.toOption = some a) :
    outcome = .ok a := by
  cases outcome with
  | error e => cases h
  | ok b =>
      cases h
      rfl

/-- The outcome of a computation from a state, and the state that it leaves. -/
def runOn (action : ExceptT ε (StateM σ) α) (state : σ) : Except ε α × σ :=
  action.run state

theorem runOn_pure (a : α) (state : σ) :
    runOn (pure a : ExceptT ε (StateM σ) α) state = (.ok a, state) :=
  rfl

theorem runOn_bind (action : ExceptT ε (StateM σ) α) (next : α → ExceptT ε (StateM σ) β)
    (state : σ) :
    runOn (action >>= next) state
      = match runOn action state with
        | (.ok a, state') => runOn (next a) state'
        | (.error e, state') => (.error e, state') := by
  cases h : runOn action state with
  | mk outcome state' =>
      -- an error leaves the state of the failed computation, not the one before it
      have hrun : action.run state = (outcome, state') := h
      rw [runOn, ExceptT.run_bind]
      show StateT.bind action.run _ state = _
      rw [StateT.bind, hrun]
      cases outcome <;> rfl

theorem runOn_bind_ok {action : ExceptT ε (StateM σ) α} {next : α → ExceptT ε (StateM σ) β}
    {state state' : σ} {a : α} (h : runOn action state = (.ok a, state')) :
    runOn (action >>= next) state = runOn (next a) state' := by
  rw [runOn_bind, h]

theorem runOn_bind_error {action : ExceptT ε (StateM σ) α} {next : α → ExceptT ε (StateM σ) β}
    {state state' : σ} {e : ε} (h : runOn action state = (.error e, state')) :
    runOn (action >>= next) state = (.error e, state') := by
  rw [runOn_bind, h]

/-- A computation that fails, whatever state it leaves, ends what goes on from it. -/
theorem fst_runOn_bind_error {action : ExceptT ε (StateM σ) α} {next : α → ExceptT ε (StateM σ) β}
    {state : σ} {e : ε} (h : (runOn action state).1 = .error e) :
    (runOn (action >>= next) state).1 = .error e := by
  have hpair : runOn action state = (.error e, (runOn action state).2) := Prod.ext h rfl
  rw [runOn_bind_error hpair]

/-! ## What holds however a computation ends -/

/-- However an action ends, the state that it leaves stands to the one before as `R` says. -/
def Always (R : σ → σ → Prop) (action : ExceptT ε (StateM σ) α) (state : σ) : Prop :=
  R state (runOn action state).2

namespace Always

variable {R R' : σ → σ → Prop} {action : ExceptT ε (StateM σ) α}
  {next : α → ExceptT ε (StateM σ) β} {state state' : σ}

theorem of_run {outcome : Except ε α} (hrun : runOn action state = (outcome, state'))
    (h : R state state') : Always R action state := by
  rw [Always, hrun]
  exact h

theorem imp (h : Always R action state) (himp : ∀ state', R state state' → R' state state') :
    Always R' action state :=
  himp _ h

/-- What an action leaves is what the next one starts from, and if it fails there is no next one. -/
theorem bind (htrans : ∀ {a b c}, R a b → R b c → R a c) (h : Always R action state)
    (hnext : ∀ a state', runOn action state = (.ok a, state') → R state state' →
      Always R (next a) state') :
    Always R (action >>= next) state := by
  rw [Always] at h
  cases hrun : runOn action state with
  | mk outcome state' =>
      rw [hrun] at h
      cases outcome with
      | error e => exact of_run (runOn_bind_error hrun) h
      | ok a =>
          rw [Always, runOn_bind_ok hrun]
          exact htrans h (hnext a state' hrun h)

/-- An action of which the outcome is known. -/
theorem following {a : α} (hrun : runOn action state = (.ok a, state'))
    (hnext : Always R (next a) state') (hcomp : ∀ {c}, R state' c → R state c) :
    Always R (action >>= next) state := by
  rw [Always, runOn_bind_ok hrun]
  exact hcomp hnext

end Always

end ByteEmbed
