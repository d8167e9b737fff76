/-
Runs of a total transition function under a guard.  A guard judges each step by
the state before it and by its label, which is how one says who may act and
when; an invariant that survives every guarded step holds all along the run.
-/
import Mathlib.Algebra.GroupWithZero.Nat
import Mathlib.Data.List.Induction

namespace Transition

universe u v w x

variable {S : Type u} {L : Type v} {O : Type w}

def run (step : S → L → S) (start : S) (labels : List L) : S :=
  labels.foldl step start

/-- Every step of the run satisfies `guard` in the state it starts from. -/
def Along (step : S → L → S) (guard : S → L → Prop) : S → List L → Prop
  | _, [] => True
  | s, label :: rest => guard s label ∧ Along step guard (step s label) rest

/-- Every state the run passes through, both ends included, satisfies `P`. -/
def Always (step : S → L → S) (P : S → Prop) : S → List L → Prop
  | s, [] => P s
  | s, label :: rest => P s ∧ Always step P (step s label) rest

variable (step : S → L → S)

@[simp] theorem run_nil (start : S) : run step start [] = start := rfl

@[simp] theorem run_cons (start : S) (label : L) (rest : List L) :
    run step start (label :: rest) = run step (step start label) rest := rfl

theorem run_append (start : S) (first second : List L) :
    run step start (first ++ second) = run step (run step start first) second :=
  List.foldl_append

instance alongDecidable (guard : S → L → Prop)
    [∀ s label, Decidable (guard s label)] :
    ∀ (s : S) (labels : List L), Decidable (Along step guard s labels)
  | _, [] => isTrue trivial
  | s, label :: rest =>
      @instDecidableAnd _ _ _ (alongDecidable guard (step s label) rest)

variable {step}

theorem Along.and {first second : S → L → Prop} {start : S} {labels : List L}
    (hfirst : Along step first start labels)
    (hsecond : Along step second start labels) :
    Along step (fun s label => first s label ∧ second s label) start labels := by
  induction labels generalizing start with
  | nil => trivial
  | cons label rest ih =>
      exact ⟨⟨hfirst.1, hsecond.1⟩, ih hfirst.2 hsecond.2⟩

theorem Along.mono {guard weaker : S → L → Prop} {start : S} {labels : List L}
    (halong : Along step guard start labels)
    (himp : ∀ s label, guard s label → weaker s label) :
    Along step weaker start labels := by
  induction labels generalizing start with
  | nil => trivial
  | cons label rest ih => exact ⟨himp start label halong.1, ih halong.2⟩

/-- A guard that looks at the labels only. -/
theorem along_of_forall_mem {P : L → Prop} {start : S} {labels : List L}
    (hlabels : ∀ label ∈ labels, P label) :
    Along step (fun _ label => P label) start labels := by
  induction labels generalizing start with
  | nil => trivial
  | cons label rest ih =>
      exact ⟨hlabels label List.mem_cons_self,
        ih fun other hother => hlabels other (List.mem_cons_of_mem label hother)⟩

theorem along_append {guard : S → L → Prop} {start : S} {first second : List L} :
    Along step guard start (first ++ second) ↔
      Along step guard start first ∧
        Along step guard (run step start first) second := by
  induction first generalizing start with
  | nil => simp [Along]
  | cons label rest ih => simp [Along, ih, and_assoc]

/-- An invariant of every step is an invariant of the run. -/
theorem run_of_invariant (Inv : S → Prop)
    (hstep : ∀ s label, Inv s → Inv (step s label)) {start : S}
    (hstart : Inv start) (labels : List L) : Inv (run step start labels) := by
  induction labels generalizing start with
  | nil => exact hstart
  | cons label rest ih => exact ih (hstep start label hstart)

/-- An invariant of every guarded step is an invariant of a guarded run. -/
theorem run_of_along {Inv : S → Prop} {guard : S → L → Prop}
    (hstep : ∀ s label, Inv s → guard s label → Inv (step s label)) {start : S}
    (hstart : Inv start) {labels : List L}
    (halong : Along step guard start labels) : Inv (run step start labels) := by
  induction labels generalizing start with
  | nil => exact hstart
  | cons label rest ih => exact ih (hstep start label hstart halong.1) halong.2

/-- The budget rule: every label is charged to a budget that the invariant
carries, and what the run leaves of it is the budget at the end. -/
theorem run_of_budget {Inv : Nat → S → Prop} {guard : S → L → Prop}
    {cost : L → Nat}
    (hstep : ∀ n s label, Inv n s → guard s label →
      Inv (n - cost label) (step s label)) {n : Nat} {start : S}
    (hstart : Inv n start) {labels : List L}
    (halong : Along step guard start labels) :
    Inv (n - (labels.map cost).sum) (run step start labels) := by
  induction labels generalizing start n with
  | nil => exact hstart
  | cons label rest ih =>
      rw [List.map_cons, List.sum_cons, ← Nat.sub_sub]
      exact ih (hstep n start label hstart halong.1) halong.2

/-- An invariant that implies `P` makes `P` hold in every state reached. -/
theorem always_of_invariant {Inv P : S → Prop} {guard : S → L → Prop}
    (hstep : ∀ s label, Inv s → guard s label → Inv (step s label))
    (himp : ∀ s, Inv s → P s) {start : S} (hstart : Inv start)
    {labels : List L} (halong : Along step guard start labels) :
    Always step P start labels := by
  induction labels generalizing start with
  | nil => exact himp start hstart
  | cons label rest ih =>
      exact ⟨himp start hstart, ih (hstep start label hstart halong.1) halong.2⟩

/-- An invariant under which the guard of a step implies `Q` makes `Q` hold of
every step of the run. -/
theorem along_of_invariant {Inv : S → Prop} {guard Q : S → L → Prop}
    (hstep : ∀ s label, Inv s → guard s label → Inv (step s label))
    (himp : ∀ s label, Inv s → guard s label → Q s label) {start : S}
    (hstart : Inv start) {labels : List L}
    (halong : Along step guard start labels) : Along step Q start labels := by
  induction labels generalizing start with
  | nil => trivial
  | cons label rest ih =>
      exact ⟨himp start label hstart halong.1,
        ih (hstep start label hstart halong.1) halong.2⟩

/-- Guards that agree under an invariant of every step agree on every run. -/
theorem along_iff_of_invariant {Inv : S → Prop} {guard Q : S → L → Prop}
    (hstep : ∀ s label, Inv s → Inv (step s label))
    (hiff : ∀ s label, Inv s → (guard s label ↔ Q s label)) {start : S}
    (hstart : Inv start) (labels : List L) :
    Along step guard start labels ↔ Along step Q start labels := by
  induction labels generalizing start with
  | nil => rfl
  | cons label rest ih =>
      exact and_congr (hiff start label hstart) (ih (hstep start label hstart))

theorem Always.start {P : S → Prop} {start : S} {labels : List L}
    (halways : Always step P start labels) : P start := by
  cases labels with
  | nil => exact halways
  | cons label rest => exact halways.1

/-- The exact rule.  Under what may be assumed of the steps, the guard keeps an
invariant that implies `P`, and `P` after a step gives back the guard of the
step: then `P` holds throughout exactly when the guard is met throughout. -/
theorem always_iff_along {Inv P : S → Prop} {assumed guard : S → L → Prop}
    (hstep : ∀ s label, Inv s → assumed s label → guard s label →
      Inv (step s label))
    (himp : ∀ s, Inv s → P s)
    (hback : ∀ s label, Inv s → assumed s label → P (step s label) →
      guard s label)
    {start : S} (hstart : Inv start) {labels : List L}
    (hassumed : Along step assumed start labels) :
    Always step P start labels ↔ Along step guard start labels := by
  constructor
  · intro halways
    induction labels generalizing start with
    | nil => trivial
    | cons label rest ih =>
        have hguard := hback start label hstart hassumed.1 halways.2.start
        exact ⟨hguard, ih (hstep start label hstart hassumed.1 hguard)
          hassumed.2 halways.2⟩
  · intro hguard
    exact always_of_invariant
      (fun s label hinv hboth => hstep s label hinv hboth.1 hboth.2) himp hstart
      (hassumed.and hguard)

/-- The exact rule with nothing assumed of the steps. -/
theorem always_iff_along_of_invariant (Inv : S → Prop) {P : S → Prop}
    {guard : S → L → Prop}
    (hstep : ∀ s label, Inv s → guard s label → Inv (step s label))
    (himp : ∀ s, Inv s → P s)
    (hback : ∀ s label, Inv s → P (step s label) → guard s label)
    {start : S} (hstart : Inv start) (labels : List L) :
    Always step P start labels ↔ Along step guard start labels :=
  always_iff_along (fun s label hinv _ hguard => hstep s label hinv hguard) himp
    (fun s label hinv _ hafter => hback s label hinv hafter) hstart
    (along_of_forall_mem fun _ _ => trivial)

theorem Always.final {P : S → Prop} {start : S} {labels : List L}
    (halways : Always step P start labels) : P (run step start labels) := by
  induction labels generalizing start with
  | nil => exact halways
  | cons label rest ih => exact ih halways.2

/-- A failure that no step repairs is seen at the end of the run. -/
theorem always_iff_final {P : S → Prop}
    (hpersist : ∀ s label, P (step s label) → P s) {start : S}
    {labels : List L} :
    Always step P start labels ↔ P (run step start labels) := by
  refine ⟨Always.final, fun hfinal => ?_⟩
  induction labels generalizing start with
  | nil => exact hfinal
  | cons label rest ih =>
      have hrest := ih hfinal
      exact ⟨hpersist start label hrest.start, hrest⟩

/-- The ranking rule: a label that keeps an invariant and lowers a rank, until
`P` holds, is repeated finitely often before it does. -/
theorem reaches_of_rank {Inv P : S → Prop} (label : L) (rank : S → Nat)
    (hstep : ∀ s, Inv s → ¬ P s → Inv (step s label))
    (hrank : ∀ s, Inv s → ¬ P s → rank (step s label) < rank s)
    {start : S} (hstart : Inv start) :
    ∃ n, P (run step start (List.replicate n label)) := by
  induction hleft : rank start using Nat.strongRecOn generalizing start with
  | ind left ih =>
      by_cases hdone : P start
      · exact ⟨0, hdone⟩
      · obtain ⟨n, hn⟩ := ih _ (hleft ▸ hrank start hstart hdone)
          (hstep start hstart hdone) rfl
        exact ⟨n + 1, by rwa [List.replicate_succ]⟩

/-- A step outside the guard spoils the run for good: either the guard is met
throughout, and the invariant kept, or the run ends spoilt. -/
theorem along_or_spoilt {Inv Spoilt : S → Prop} {guard : S → L → Prop}
    (hstep : ∀ s label, Inv s → guard s label → Inv (step s label))
    (hfail : ∀ s label, Inv s → ¬ guard s label → Spoilt (step s label))
    (hspoilt : ∀ s label, Spoilt s → Spoilt (step s label)) {start : S}
    (hstart : Inv start) (labels : List L) :
    Along step guard start labels ∧ Inv (run step start labels) ∨
      Spoilt (run step start labels) := by
  induction labels generalizing start with
  | nil => exact Or.inl ⟨trivial, hstart⟩
  | cons label rest ih =>
      by_cases hguard : guard start label
      · exact (ih (hstep start label hstart hguard)).imp_left
          fun h => ⟨⟨hguard, h.1⟩, h.2⟩
      · exact Or.inr (run_of_invariant Spoilt hspoilt
          (hfail start label hstart hguard) rest)

/-- `again` is `once` with labels repeated: each is followed by any number of
labels that are the same to it. -/
inductive Repeats (same : L → L → Prop) : List L → List L → Prop where
  | nil : Repeats same [] []
  | next (label : L) {once again : List L} (hrest : Repeats same once again) :
      Repeats same (label :: once) (label :: again)
  | repeated {label other : L} {once again : List L} (hsame : same label other)
      (hrest : Repeats same (label :: once) (label :: again)) :
      Repeats same (label :: once) (label :: other :: again)

/-- Where a repeated label changes nothing, repetitions do not show. -/
theorem run_of_repeats {same : L → L → Prop}
    (hagain : ∀ s label other, same label other →
      step (step s label) other = step s label)
    {once again : List L} (hrepeats : Repeats same once again) (start : S) :
    run step start again = run step start once := by
  induction hrepeats generalizing start with
  | nil => rfl
  | next label hrest ih => exact ih (step start label)
  | repeated hsame hrest ih =>
      rw [← ih start, run_cons, run_cons, run_cons, hagain _ _ _ hsame]

/-- The simulation rule for a machine that can fail: where every step from
related states succeeds and keeps them related, so does every run. -/
theorem exists_foldlM_of_simulation {T : Type w} {R : S → T → Prop}
    {machine : S → L → Option S} {spec : T → L → T}
    (hstep : ∀ s t label, R s t →
      ∃ after, machine s label = some after ∧ R after (spec t label))
    {s : S} {t : T} (hR : R s t) (labels : List L) :
    ∃ final, labels.foldlM machine s = some final ∧
      R final (run spec t labels) := by
  induction labels generalizing s t with
  | nil => exact ⟨s, rfl, hR⟩
  | cons label rest ih =>
      obtain ⟨middle, hmiddle, hRmiddle⟩ := hstep s t label hR
      obtain ⟨final, hfinal, hRfinal⟩ := ih hRmiddle
      refine ⟨final, ?_, hRfinal⟩
      rw [List.foldlM_cons, hmiddle]
      exact hfinal

/-- The simulation rule: a relation kept by every step of two machines is kept
by their runs. -/
theorem run_of_related {T : Type w} {R : S → T → Prop} {spec : T → L → T}
    (hstep : ∀ s t label, R s t → R (step s label) (spec t label)) {s : S} {t : T}
    (hR : R s t) (labels : List L) : R (run step s labels) (run spec t labels) := by
  induction labels generalizing s t with
  | nil => exact hR
  | cons label rest ih => exact ih (hstep s t label hR)

/-- A machine with outputs, run with the log of everything it has put out. -/
def logged (machine : S → L → S × List O) : S × List O → L → S × List O :=
  fun state label =>
    ((machine state.1 label).1, state.2 ++ (machine state.1 label).2)

/-- The log does not change what the machine does. -/
theorem run_logged (machine : S → L → S × List O) (start : S) (log : List O)
    (labels : List L) :
    (run (logged machine) (start, log) labels).1 =
      run (fun s label => (machine s label).1) start labels := by
  induction labels generalizing start log with
  | nil => rfl
  | cons label rest ih => exact ih _ _

theorem along_logged_iff {machine : S → L → S × List O} {guard : S → L → Prop}
    (start : S) (log : List O) (labels : List L) :
    Along (logged machine) (fun state label => guard state.1 label) (start, log)
        labels ↔
      Along (fun s label => (machine s label).1) guard start labels := by
  induction labels generalizing start log with
  | nil => rfl
  | cons label rest ih => exact and_congr_right fun _ => ih _ _

/-- What holds of everything on the log holds of everything put out in the run,
step by step, and the other way round. -/
theorem forall_mem_logged_iff {machine : S → L → S × List O} {P : O → Prop}
    (start : S) (log : List O) (labels : List L) :
    (∀ o ∈ (run (logged machine) (start, log) labels).2, P o) ↔
      (∀ o ∈ log, P o) ∧
        Along (fun s label => (machine s label).1)
          (fun s label => ∀ o ∈ (machine s label).2, P o) start labels := by
  induction labels generalizing start log with
  | nil => simp [Along]
  | cons label rest ih =>
      rw [run_cons, logged, ih, List.forall_mem_append, and_assoc]
      rfl

/-- The simulation rule for machines with outputs: a relation under which every
admitted label puts out the same and leads to related states again gives equal
logs. -/
theorem logged_eq_of_simulation {T : Type x} {machine : S → L → S × List O}
    {spec : T → L → T × List O} {R : S → T → Prop} {admitted : L → Prop}
    (hstep : ∀ s t label, R s t → admitted label →
      (machine s label).2 = (spec t label).2 ∧
        R (machine s label).1 (spec t label).1)
    {s : S} {t : T} (hR : R s t) {labels : List L}
    (hlabels : ∀ label ∈ labels, admitted label) (log : List O) :
    (run (logged machine) (s, log) labels).2 =
        (run (logged spec) (t, log) labels).2 ∧
      R (run (logged machine) (s, log) labels).1
        (run (logged spec) (t, log) labels).1 := by
  induction labels generalizing s t log with
  | nil => exact ⟨rfl, hR⟩
  | cons label rest ih =>
      obtain ⟨hlabel, hrest⟩ := List.forall_mem_cons.mp hlabels
      obtain ⟨hsame, hafter⟩ := hstep s t label hR hlabel
      have hlog : log ++ (machine s label).2 = log ++ (spec t label).2 := by
        rw [hsame]
      simp only [run_cons, logged, hlog]
      exact ih hafter hrest _

/-- The two-run rule: the same for two runs of one machine. -/
theorem logged_eq_of_related {machine : S → L → S × List O} {R : S → S → Prop}
    {admitted : L → Prop}
    (hstep : ∀ s t label, R s t → admitted label →
      (machine s label).2 = (machine t label).2 ∧
        R (machine s label).1 (machine t label).1)
    {s t : S} (hR : R s t) {labels : List L}
    (hlabels : ∀ label ∈ labels, admitted label) (log : List O) :
    (run (logged machine) (s, log) labels).2 =
        (run (logged machine) (t, log) labels).2 ∧
      R (run (logged machine) (s, log) labels).1
        (run (logged machine) (t, log) labels).1 :=
  logged_eq_of_simulation hstep hR hlabels log

end Transition
