import ClassLang.Build.Step
import ClassLang.Proofs.Places

/-!
# Steps that fail without a trace

A step that fails keeps the state that it reached, so a failure may well leave a trace.
It leaves none if all that can fail comes before all that changes something: steps that
only look, then one that changes the state or fails as a whole, then steps that cannot
fail any more.  That is how files are written here.
-/

namespace ClassLang

section Steps

variable {ε σ α β : Type} {first : EStateM ε σ α} {next : α → EStateM ε σ β}
  {state reached : σ} {value : β} {error : ε}

/-- The step leaves the state as it is, whether it fails or not. -/
def IsQuery (step : EStateM ε σ α) : Prop :=
  ∀ state, (∃ value, step state = .ok value state) ∨ ∃ error, step state = .error error state

/-- If the step fails, the state is as it was before. -/
def FailsUnchanged (step : EStateM ε σ α) : Prop :=
  ∀ ⦃state error reached⦄, step state = .error error reached → reached = state

def NeverFails (step : EStateM ε σ α) : Prop :=
  ∀ state, ∃ value reached, step state = .ok value reached

/-! ## One step after another -/

/-- Two steps succeed if both do, the second one where the first one has led. -/
theorem step_bind_eq_ok_iff :
    (first >>= next) state = .ok value reached ↔
      ∃ found middle, first state = .ok found middle ∧ next found middle = .ok value reached := by
  change EStateM.bind first next state = _ ↔ _
  unfold EStateM.bind
  cases first state with
  | error error middle => simp
  | ok found middle => simp

/-- If the second step fails, what the first one has done is kept. -/
theorem step_bind_eq_error_iff :
    (first >>= next) state = .error error reached ↔
      first state = .error error reached ∨
        ∃ found middle, first state = .ok found middle ∧
          next found middle = .error error reached := by
  change EStateM.bind first next state = _ ↔ _
  unfold EStateM.bind
  cases first state with
  | error error middle => simp
  | ok found middle => simp

/-- An error is handled where it occurred, not where the step began. -/
theorem step_tryCatch_eq_ok_iff {step : EStateM ε σ α} {handle : ε → EStateM ε σ α} {value : α} :
    tryCatch step handle state = .ok value reached ↔
      step state = .ok value reached ∨
        ∃ error middle, step state = .error error middle ∧
          handle error middle = .ok value reached := by
  change EStateM.tryCatch step handle state = _ ↔ _
  unfold EStateM.tryCatch
  cases step state with
  | error error middle => simp [EStateM.Backtrackable.restore, EStateM.dummyRestore]
  | ok found middle => simp

/-! ## Steps that only look -/

theorem IsQuery.eq_of_ok {step : EStateM ε σ α} (hquery : IsQuery step) {value : α}
    (hstep : step state = .ok value reached) : reached = state := by
  rcases hquery state with ⟨other, hother⟩ | ⟨other, hother⟩
  · cases hstep.symm.trans hother
    rfl
  · cases hstep.symm.trans hother

/-- A step that only looks leaves no trace if it fails. -/
theorem IsQuery.failsUnchanged {step : EStateM ε σ α} (hquery : IsQuery step) :
    FailsUnchanged step := by
  intro state error reached hstep
  rcases hquery state with ⟨other, hother⟩ | ⟨other, hother⟩
  · cases hstep.symm.trans hother
  · cases hstep.symm.trans hother
    rfl

/-! ## Steps that fail unchanged -/

theorem NeverFails.failsUnchanged {step : EStateM ε σ α} (hsucceeds : NeverFails step) :
    FailsUnchanged step := by
  intro state error reached hstep
  obtain ⟨value, after, hok⟩ := hsucceeds state
  cases hstep.symm.trans hok

/-- Looking before a step leaves no trace either. -/
theorem IsQuery.failsUnchanged_bind (hfirst : IsQuery first)
    (hnext : ∀ found, FailsUnchanged (next found)) : FailsUnchanged (first >>= next) := by
  intro state error reached hstep
  rcases step_bind_eq_error_iff.mp hstep with hfails | ⟨found, middle, hfound, hfails⟩
  · exact hfirst.failsUnchanged hfails
  · rw [hnext found hfails]
    exact hfirst.eq_of_ok hfound

/-- What comes after the last step that can fail may change anything. -/
theorem FailsUnchanged.bind_neverFails (hfirst : FailsUnchanged first)
    (hnext : ∀ found, NeverFails (next found)) : FailsUnchanged (first >>= next) := by
  intro state error reached hstep
  rcases step_bind_eq_error_iff.mp hstep with hfails | ⟨found, middle, -, hfails⟩
  · exact hfirst hfails
  · obtain ⟨value, after, hok⟩ := hnext found middle
    cases hfails.symm.trans hok

theorem NeverFails.bind (hfirst : NeverFails first) (hnext : ∀ found, NeverFails (next found)) :
    NeverFails (first >>= next) := by
  intro state
  obtain ⟨found, middle, hfound⟩ := hfirst state
  obtain ⟨value, reached, hvalue⟩ := hnext found middle
  exact ⟨value, reached, step_bind_eq_ok_iff.mpr ⟨found, middle, hfound, hvalue⟩⟩

theorem neverFails_pure (value : α) : NeverFails (pure value : EStateM ε σ α) :=
  fun state => ⟨value, state, rfl⟩

theorem neverFails_modify (change : σ → σ) : NeverFails (modify change : EStateM ε σ PUnit) :=
  fun state => ⟨⟨⟩, change state, rfl⟩

/-- Going over items never fails if no item can make it fail. -/
theorem neverFails_forM {items : List α} {action : α → EStateM ε σ PUnit}
    (haction : ∀ item, NeverFails (action item)) : NeverFails (forM items action) := by
  induction items with
  | nil => exact neverFails_pure _
  | cons item items ih =>
    rw [List.forM_cons]
    exact (haction item).bind fun _ => ih

/-- A step never fails if all its errors are handled. -/
theorem neverFails_tryCatch {step : EStateM ε σ α} {handle : ε → EStateM ε σ α}
    (hhandle : ∀ error, NeverFails (handle error)) : NeverFails (tryCatch step handle) := by
  intro state
  cases hstep : step state with
  | ok value reached => exact ⟨value, reached, step_tryCatch_eq_ok_iff.mpr (.inl hstep)⟩
  | error error middle =>
    obtain ⟨value, reached, hvalue⟩ := hhandle error middle
    exact ⟨value, reached, step_tryCatch_eq_ok_iff.mpr (.inr ⟨error, middle, hstep, hvalue⟩)⟩

end Steps

/-! ## Steps in a workspace -/

namespace FileStep

variable {α : Type} {query : Workspace → Except BuildError α} {workspace reached : Workspace}
  {path : String} {contents : ByteArray}

theorem look_eq_ok_iff {value : α} :
    look query workspace = .ok value reached ↔
      query workspace = .ok value ∧ reached = workspace := by
  unfold look
  cases query workspace with
  | error error => simp
  | ok found => simp [eq_comm]

theorem look_eq_error_iff {error : BuildError} :
    look query workspace = .error error reached ↔
      query workspace = .error error ∧ reached = workspace := by
  unfold look
  cases query workspace with
  | error error => simp [eq_comm]
  | ok found => simp

/-- Looking changes nothing. -/
theorem isQuery_look (query : Workspace → Except BuildError α) : IsQuery (look query) := by
  intro workspace
  cases hquery : query workspace with
  | ok value => exact .inl ⟨value, look_eq_ok_iff.mpr ⟨hquery, rfl⟩⟩
  | error error => exact .inr ⟨error, look_eq_error_iff.mpr ⟨hquery, rfl⟩⟩

theorem write_eq_ok_iff {value : Unit} :
    write path contents workspace = .ok value reached ↔
      workspace.writeFile path contents = .ok reached := by
  unfold write
  cases workspace.writeFile path contents with
  | error error => simp
  | ok written => simp

/-- A file is written as a whole, or it is left alone. -/
theorem failsUnchanged_write (path : String) (contents : ByteArray) :
    FailsUnchanged (write path contents) := by
  intro workspace error reached hwrite
  unfold write at hwrite
  split at hwrite
  · cases hwrite
  · cases hwrite
    rfl

end FileStep

end ClassLang
