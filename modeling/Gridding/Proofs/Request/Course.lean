import Gridding.Proofs.Request.Evaluation

/-!
# The course of an evaluation

The nodes of a surrogate are tried in turn, each before its components: a simple one fails if it
cannot be allocated, a merged one if it has no components. An evaluation ends with the first
failure, and its error names the node that failed, however deep it lies.
-/

namespace Gridding

variable {σ ρ α ε S R : Type}

namespace Surrogate

mutual

/-- A surrogate and all that lie in it, each before its components. -/
def nodes : Surrogate σ α → List (Surrogate σ α)
  | simple l source => [simple l source]
  | merged l components => merged l components :: nodesOfAll components

def nodesOfAll : List (Surrogate σ α × α) → List (Surrogate σ α)
  | [] => []
  | (c, _) :: cs => nodes c ++ nodesOfAll cs

end

/-- Why a node fails, if it does, apart from its components. -/
def attempt (allocate : Label → σ → S → Except ε (Allocation ρ α) × S) :
    Surrogate σ α → S → Option (Cause ε) × S
  | simple l source, d =>
    match allocate l source d with
    | (.error e, d) => (some (.simple e), d)
    | (.ok _, d) => (none, d)
  | merged l components, d => (if components.isEmpty then some (.noComponents l.name) else none, d)

/-- What becomes of nodes that are tried in turn, up to the first that fails. -/
structure Course (σ α ε S : Type) where
  tried : List (Surrogate σ α)
  failure : Option (Surrogate σ α × Cause ε)
  state : S

namespace Course

def andThen (c : Course σ α ε S) (next : S → Course σ α ε S) : Course σ α ε S :=
  match c.failure with
  | some _ => c
  | none => ⟨c.tried ++ (next c.state).tried, (next c.state).failure, (next c.state).state⟩

theorem andThen_of_failure {c : Course σ α ε S} {f : Surrogate σ α × Cause ε}
    (h : c.failure = some f) (next : S → Course σ α ε S) : c.andThen next = c := by
  rw [andThen, h]

theorem andThen_of_passed {c : Course σ α ε S} (h : c.failure = none)
    (next : S → Course σ α ε S) : c.andThen next =
      ⟨c.tried ++ (next c.state).tried, (next c.state).failure, (next c.state).state⟩ := by
  rw [andThen, h]

theorem andThen_assoc (c : Course σ α ε S) (next next' : S → Course σ α ε S) :
    (c.andThen next).andThen next' = c.andThen fun d => (next d).andThen next' := by
  cases h : c.failure with
  | some f => simp only [andThen, h]
  | none =>
    simp only [andThen, h]
    cases h' : (next c.state).failure with
    | some f => simp only [h']
    | none => simp only [List.append_assoc]

end Course

variable {allocate : Label → σ → S → Except ε (Allocation ρ α) × S} {d : S}

def trial (allocate : Label → σ → S → Except ε (Allocation ρ α) × S) (n : Surrogate σ α) (d : S) :
    Course σ α ε S :=
  ⟨[n], (n.attempt allocate d).1.map fun cause => (n, cause), (n.attempt allocate d).2⟩

def course (allocate : Label → σ → S → Except ε (Allocation ρ α) × S) :
    List (Surrogate σ α) → S → Course σ α ε S
  | [], d => ⟨[], none, d⟩
  | n :: ns, d => (n.trial allocate d).andThen (course allocate ns)

theorem course_append (ns ms : List (Surrogate σ α)) (d : S) :
    course allocate (ns ++ ms) d = (course allocate ns d).andThen (course allocate ms) := by
  induction ns generalizing d with
  | nil => rw [course, Course.andThen_of_passed rfl, List.nil_append, List.nil_append]
  | cons n ns ih =>
    rw [List.cons_append, course, course, Course.andThen_assoc]
    exact congrArg _ (funext ih)

theorem tried_of_passed {ns : List (Surrogate σ α)} (h : (course allocate ns d).failure = none) :
    (course allocate ns d).tried = ns := by
  induction ns generalizing d with
  | nil => rfl
  | cons n ns ih =>
    rw [course] at h ⊢
    cases hfirst : (n.trial allocate d).failure with
    | some f =>
      rw [Course.andThen_of_failure hfirst, hfirst] at h
      cases h
    | none =>
      rw [Course.andThen_of_passed hfirst] at h ⊢
      exact congrArg (n :: ·) (ih h)

/-- When the nodes of a surrogate are tried in turn, those before this one pass and it fails. -/
structure FailsFirst (allocate : Label → σ → S → Except ε (Allocation ρ α) × S) (s : Surrogate σ α)
    (d : S) (before : List (Surrogate σ α)) (n : Surrogate σ α) (cause : Cause ε) (d' : S) :
    Prop where
  nodes : ∃ after, s.nodes = before ++ n :: after
  passed : (course allocate before d).failure = none
  fails : n.attempt allocate (course allocate before d).state = (some cause, d')

/-- A node that fails after all before it have passed is the last that is tried. -/
theorem FailsFirst.course_eq {s : Surrogate σ α} {before : List (Surrogate σ α)} {n : Surrogate σ α}
    {cause : Cause ε} {d' : S} (h : s.FailsFirst allocate d before n cause d') :
    course allocate s.nodes d = ⟨before ++ [n], some (n, cause), d'⟩ := by
  obtain ⟨after, hnodes⟩ := h.nodes
  have htrial : n.trial allocate (course allocate before d).state = ⟨[n], some (n, cause), d'⟩ := by
    rw [trial, h.fails]
    rfl
  rw [hnodes, course_append, Course.andThen_of_passed h.passed, tried_of_passed h.passed, course,
    htrial]
  rfl

/-- If nodes do not all pass, there is a first that does not. -/
theorem exists_first {ns : List (Surrogate σ α)} {n : Surrogate σ α} {cause : Cause ε}
    (h : (course allocate ns d).failure = some (n, cause)) :
    ∃ before after, ns = before ++ n :: after ∧ (course allocate before d).failure = none ∧
      n.attempt allocate (course allocate before d).state =
        (some cause, (course allocate ns d).state) := by
  induction ns generalizing d with
  | nil => cases h
  | cons m ns ih =>
    rw [course] at h ⊢
    cases hfirst : (m.trial allocate d).failure with
    | some f =>
      rw [Course.andThen_of_failure hfirst] at h ⊢
      obtain ⟨cause', hcause, hpair⟩ := Option.map_eq_some_iff.mp h
      obtain ⟨rfl, rfl⟩ := Prod.mk.inj hpair
      exact ⟨[], ns, rfl, rfl, Prod.ext hcause rfl⟩
    | none =>
      rw [Course.andThen_of_passed hfirst] at h ⊢
      obtain ⟨before, after, rfl, hpassed, hfails⟩ := ih h
      refine ⟨m :: before, after, rfl, ?_, ?_⟩
      · rw [course, Course.andThen_of_passed hfirst]
        exact hpassed
      · rw [course, Course.andThen_of_passed hfirst]
        exact hfails

theorem exists_failsFirst_iff {s : Surrogate σ α} :
    (∃ before n cause d', s.FailsFirst allocate d before n cause d') ↔
      ∃ f, (course allocate s.nodes d).failure = some f := by
  constructor
  · rintro ⟨before, n, cause, d', h⟩
    exact ⟨(n, cause), by rw [h.course_eq]⟩
  · rintro ⟨⟨n, cause⟩, h⟩
    obtain ⟨before, after, hnodes, hpassed, hfails⟩ := exists_first h
    exact ⟨before, n, cause, _, ⟨after, hnodes⟩, hpassed, hfails⟩

theorem attempt_state (hstate : ∀ l source d, (allocate l source d).2 = d) (n : Surrogate σ α)
    (d : S) : (n.attempt allocate d).2 = d := by
  cases n with
  | simple l source =>
    have hsame := hstate l source d
    rw [attempt]
    split <;> simp_all
  | merged l components => rfl

/-- If allocations leave the state as it is, a node fails in turn if it does on its own. -/
theorem exists_failure_iff (hstate : ∀ l source d, (allocate l source d).2 = d)
    {ns : List (Surrogate σ α)} :
    (∃ f, (course allocate ns d).failure = some f) ↔
      ∃ n ∈ ns, ∃ cause, (n.attempt allocate d).1 = some cause := by
  induction ns with
  | nil => simp [course]
  | cons n ns ih =>
    rw [course, List.exists_mem_cons_iff, ← ih]
    cases hfirst : (n.attempt allocate d).1 with
    | some cause =>
      have htrial : (n.trial allocate d).failure = some (n, cause) := by rw [trial, hfirst]; rfl
      rw [Course.andThen_of_failure htrial, htrial]
      simp
    | none =>
      have htrial : (n.trial allocate d).failure = none := by rw [trial, hfirst]; rfl
      have hsame : (n.trial allocate d).state = d := attempt_state hstate n d
      rw [Course.andThen_of_passed htrial, hsame]
      simp

theorem course_nodes_merged {l : Label} {components : List (Surrogate σ α × α)}
    (hsome : ¬ components.isEmpty) (d : S) :
    let c := course allocate (nodesOfAll components) d
    course allocate (merged l components).nodes d =
      ⟨merged l components :: c.tried, c.failure, c.state⟩ := by
  have htrial : (merged l components).trial allocate d = ⟨[merged l components], none, d⟩ := by
    rw [trial, attempt, if_neg hsome]
    rfl
  rw [nodes, course, htrial]
  rfl

/-! ## Evaluation -/

namespace Course

/-- An evaluation ends as the course of nodes does: with a result of a kind, or with an error that
names the failing node. -/
def EndsIn (c : Course σ α ε S) (location : String) (P : R → Prop)
    (r : Except (ComputationError ε) R × S) : Prop :=
  match c.failure with
  | none => ∃ a, r = (.ok a, c.state) ∧ P a
  | some (n, cause) => r = (.error ⟨n.label.identifier, location, cause⟩, c.state)

variable {c : Course σ α ε S} {location : String} {P : R → Prop}
  {r : Except (ComputationError ε) R × S}

theorem endsIn_of_passed (h : c.failure = none) :
    c.EndsIn location P r ↔ ∃ a, r = (.ok a, c.state) ∧ P a := by
  rw [EndsIn, h]

theorem endsIn_of_failure {n : Surrogate σ α} {cause : Cause ε} (h : c.failure = some (n, cause)) :
    c.EndsIn location P r ↔ r = (.error ⟨n.label.identifier, location, cause⟩, c.state) := by
  rw [EndsIn, h]

end Course

variable [Zero α] [Add α] [Mul α] {location : String} {place : Int × Int × Option (Shape ρ)}

/-- Are these allocations of one shape to one grid, one for each component? -/
def AllPlaced (place : Int × Int × Option (Shape ρ)) (components : List (Surrogate σ α × α))
    (rs : List (Allocation ρ α)) : Prop :=
  rs.length = components.length ∧ ∀ r ∈ rs, r.setting = place

theorem evaluateAll_endsIn {components : List (Surrogate σ α × α)}
    (hcomponents : ∀ c ∈ components, ∀ d, (course allocate c.1.nodes d).EndsIn location
      (·.setting = place) (c.1.evaluate allocate location d)) (d : S) :
    (course allocate (nodesOfAll components) d).EndsIn location (AllPlaced place components)
      (evaluateAll allocate location components d) := by
  induction components generalizing d with
  | nil => exact ⟨[], rfl, rfl, by simp⟩
  | cons c cs ih =>
    obtain ⟨c, m⟩ := c
    have hfirst := hcomponents (c, m) List.mem_cons_self d
    have hrest := ih (fun c hc => hcomponents c (List.mem_cons_of_mem _ hc))
      (course allocate c.nodes d).state
    rw [nodesOfAll, course_append, evaluateAll]
    cases hcourse : (course allocate c.nodes d).failure with
    | some f =>
      rw [Course.andThen_of_failure hcourse, Course.endsIn_of_failure hcourse,
        (Course.endsIn_of_failure hcourse).mp hfirst]
    | none =>
      obtain ⟨a, ha, hplace⟩ := (Course.endsIn_of_passed hcourse).mp hfirst
      rw [Course.andThen_of_passed hcourse, ha]
      cases hcourses :
          (course allocate (nodesOfAll cs) (course allocate c.nodes d).state).failure with
      | some f =>
        rw [Course.endsIn_of_failure hcourses] at hrest
        simp only [hrest]
        rfl
      | none =>
        obtain ⟨rs, hrs, hlen, hplaces⟩ := (Course.endsIn_of_passed hcourses).mp hrest
        simp only [hrs]
        exact ⟨a :: rs, rfl, congrArg (· + 1) hlen, List.forall_mem_cons.mpr ⟨hplace, hplaces⟩⟩

/-- The evaluation of a surrogate ends as the course of its nodes does. -/
theorem evaluate_endsIn
    (hplace : ∀ l source d a d', allocate l source d = (.ok a, d') → a.setting = place)
    (s : Surrogate σ α) (d : S) :
    (course allocate s.nodes d).EndsIn location (·.setting = place)
      (s.evaluate allocate location d) := by
  induction s generalizing d with
  | simple l source =>
    cases hsimple : allocate l source d with
    | mk r d' =>
      cases r with
      | error e => simp [Course.EndsIn, nodes, course, trial, attempt, evaluate, hsimple, label,
          Course.andThen, Except.mapError]
      | ok a => simp [Course.EndsIn, nodes, course, trial, attempt, evaluate, hsimple,
          Course.andThen, Except.mapError, hplace l source d a d' hsimple]
  | merged l components ih =>
    have hall := evaluateAll_endsIn ih d
    rw [evaluate]
    split
    case isTrue hnone =>
      simp [Course.EndsIn, nodes, course, trial, attempt, hnone, Course.andThen, label]
    case isFalse hsome =>
      rw [course_nodes_merged hsome]
      cases hcourse : (course allocate (nodesOfAll components) d).failure with
      | some f =>
        rw [Course.endsIn_of_failure hcourse] at hall
        rw [hall]
        rfl
      | none =>
        obtain ⟨rs, hrs, hlen, hplaces⟩ := (Course.endsIn_of_passed hcourse).mp hall
        have hcount : rs.length = (components.map (·.2)).length :=
          hlen.trans (List.length_map _).symm
        cases rs with
        | nil => exact absurd (List.isEmpty_iff_length_eq_zero.mpr hlen.symm) hsome
        | cons first rest =>
          -- They are allocations of one shape to one grid, so they can be merged.
          simp only [hrs, Allocation.merge_cons hcount hplaces]
          exact ⟨_, rfl, hplaces first List.mem_cons_self⟩

end Surrogate

end Gridding
