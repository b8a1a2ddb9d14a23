import EntitySearch.Proofs.Search.Tests

/-!
# Operators with a single operand

`Search.strip` puts the operand in the place of each conjunction or disjunction of a single operand, at any depth, and
nothing that is made of a search can tell the difference (`Search.strip_is_transparent`). An operator collapses after
its operands did, so that chains of operators of either sort disappear as a whole.
-/

namespace EntitySearch

namespace Search
variable {s : Schema}

/-- The operand itself if there is a single one. -/
def collapse (operator : List Search → Search) : List Search → Search
  | [t] => t
  | ts => operator ts

mutual

/-- The search without conjunctions and disjunctions of a single operand. -/
def strip : Search → Search
  | not child => .not child.strip
  | and children => collapse .and (stripList children)
  | or children => collapse .or (stripList children)
  | entity query => .entity query

def stripList : List Search → List Search
  | [] => []
  | t :: ts => t.strip :: stripList ts

end

/-- No conjunction and no disjunction of the search has a single operand. -/
inductive Branching : Search → Prop
  | not {t} (child : Branching t) : Branching (.not t)
  | and {ts} (count : ts.length ≠ 1) (children : ∀ t ∈ ts, Branching t) : Branching (.and ts)
  | or {ts} (count : ts.length ≠ 1) (children : ∀ t ∈ ts, Branching t) : Branching (.or ts)
  | entity (query) : Branching (.entity query)

/-- What is read off the operands of an operator can be read off the collapsed one, if it is that of the
operand where there is a single one. -/
theorem apply_collapse {α : Type} {f : Search → α} {F : List Search → α} {operator : List Search → Search}
    (hoperator : ∀ ts, f (operator ts) = F ts) (hsingle : ∀ t, F [t] = f t) (ts : List Search) :
    f (collapse operator ts) = F ts := by
  match ts with
  | [] => exact hoperator []
  | [t] => exact (hsingle t).symm
  | t :: u :: ts => exact hoperator (t :: u :: ts)

theorem branching_collapse {operator : List Search → Search}
    (hoperator : ∀ ts, ts.length ≠ 1 → (∀ t ∈ ts, t.Branching) → (operator ts).Branching)
    {ts : List Search} (h : ∀ t ∈ ts, t.Branching) : (collapse operator ts).Branching := by
  match ts with
  | [] => exact hoperator [] (by simp) h
  | [t] => exact h t (.head _)
  | t :: u :: ts => exact hoperator (t :: u :: ts) (by simp) h

theorem compile_collapse {operator : List Search → Search} {join : List Predicate → Predicate}
    (hoperator : ∀ ts, (operator ts).compile s = (compileList s ts).map join) (hjoin : ∀ p, join [p] = p)
    (ts : List Search) : (collapse operator ts).compile s = (compileList s ts).map join := by
  refine apply_collapse (f := (compile s ·)) hoperator (fun t => ?_) ts
  simp only [compileList]
  cases t.compile s with
  | error e => rfl
  | ok p => exact congrArg Except.ok (hjoin p)

theorem queries_collapse {operator : List Search → Search}
    (hoperator : ∀ ts, (operator ts).queries = queriesOfList ts) (ts : List Search) :
    (collapse operator ts).queries = queriesOfList ts :=
  apply_collapse hoperator (fun t => by simp [queriesOfList]) ts

mutual

theorem branching_strip (t : Search) : t.strip.Branching := by
  cases t with
  | not child => exact .not (branching_strip child)
  | and ts => exact branching_collapse (fun _ => .and) (branching_of_mem_stripList ts)
  | or ts => exact branching_collapse (fun _ => .or) (branching_of_mem_stripList ts)
  | entity q => exact .entity q

theorem branching_of_mem_stripList (ts : List Search) : ∀ t ∈ stripList ts, t.Branching := by
  cases ts with
  | nil => simp [stripList]
  | cons t ts => exact List.forall_mem_cons.2 ⟨branching_strip t, branching_of_mem_stripList ts⟩

end

mutual

theorem compile_strip (s : Schema) (t : Search) : t.strip.compile s = t.compile s := by
  cases t with
  | not child => rw [strip, compile, compile, compile_strip s child]
  | and ts =>
    rw [strip, compile_collapse (fun _ => by rw [compile]) fun _ => rfl, compileList_stripList s ts,
      compile]
  | or ts =>
    rw [strip, compile_collapse (fun _ => by rw [compile]) fun _ => rfl, compileList_stripList s ts,
      compile]
  | entity q => rw [strip]

theorem compileList_stripList (s : Schema) (ts : List Search) :
    compileList s (stripList ts) = compileList s ts := by
  cases ts with
  | nil => rw [stripList]
  | cons t ts => rw [stripList, compileList, compileList, compile_strip s t, compileList_stripList s ts]

end

mutual

theorem queries_strip (t : Search) : t.strip.queries = t.queries := by
  cases t with
  | not child => rw [strip, queries, queries, queries_strip child]
  | and ts => rw [strip, queries_collapse fun _ => by rw [queries], queriesOfList_stripList ts, queries]
  | or ts => rw [strip, queries_collapse fun _ => by rw [queries], queriesOfList_stripList ts, queries]
  | entity q => rw [strip]

theorem queriesOfList_stripList (ts : List Search) : queriesOfList (stripList ts) = queriesOfList ts := by
  cases ts with
  | nil => rw [stripList]
  | cons t ts => rw [stripList, queriesOfList, queriesOfList, queries_strip t, queriesOfList_stripList ts]

end

/-- A search without the operators of a single operand is compiled to the same predicate or fails with the
same error, over any schema. Its queries are the same, so it is about the same kind. -/
theorem strip_is_transparent (s : Schema) (t : Search) :
    t.strip.Branching ∧ t.strip.compile s = t.compile s ∧ t.strip.kind? = t.kind? ∧
      t.strip.queries = t.queries := by
  refine ⟨branching_strip t, compile_strip s t, ?_, queries_strip t⟩
  rw [kind?_eq_head?, kind?_eq_head?, queries_strip]

/-- A chain goes as a whole, and a conjunction of nothing stays. -/
example :
    strip (.or [.and [.or [.not (.and [.entity (.ofKind "User")])]]]) = .not (.entity (.ofKind "User")) ∧
    strip (.or [.and []]) = .and [] := by
  decide

end Search

end EntitySearch
