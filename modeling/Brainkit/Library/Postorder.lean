import Mathlib.Data.List.Nodup
import Mathlib.Logic.Relation

set_option autoImplicit false

universe u v w

-- A depth-first walk over nodes that are opened on demand: a node that has been opened names the nodes it needs, all of
-- which are left before it is.
namespace Postorder

inductive Mark where
  | fresh
  | entered
  | left
deriving DecidableEq

structure Walk (α : Type u) (β : Type v) where
  state : α → Mark
  opened : List α
  out : List (α × β)

variable {α : Type u} {β : Type v} {ε : Type w} [DecidableEq α]

namespace Walk

def start : Walk α β := ⟨fun _ => .fresh, [], []⟩

def enter (id : α) (s : Walk α β) : Walk α β :=
  { s with state := fun other => if other = id then .entered else s.state other, opened := s.opened ++ [id] }

def leave (id : α) (value : β) (s : Walk α β) : Walk α β :=
  { s with state := fun other => if other = id then .left else s.state other, out := s.out ++ [(id, value)] }

def ids (s : Walk α β) : List α := s.out.map Prod.fst

end Walk

-- The first failure ends the series.
def each (visit : α → Walk α β → Option (Except ε (Walk α β))) : List α → Walk α β → Option (Except ε (Walk α β))
  | [], s => some (.ok s)
  | id :: rest, s =>
      match visit id s with
      | none => none
      | some (.error err) => some (.error err)
      | some (.ok next) => each visit rest next

-- Without fuel there is no answer; every node on the way down takes one.
def visit (cycle : α → ε) (opens : α → Except ε (β × List α)) : Nat → α → Walk α β → Option (Except ε (Walk α β))
  | 0, _, _ => none
  | fuel + 1, id, s =>
      match s.state id with
      | .left => some (.ok s)
      | .entered => some (.error (cycle id))
      | .fresh =>
          match opens id with
          | .error err => some (.error err)
          | .ok (value, needs) =>
              match each (visit cycle opens fuel) needs (s.enter id) with
              | none => none
              | some (.error err) => some (.error err)
              | some (.ok next) => some (.ok (next.leave id value))

def Needs (opens : α → Except ε (β × List α)) (a b : α) : Prop := ∃ value needs, opens a = .ok (value, needs) ∧ b ∈ needs

def Reaches (opens : α → Except ε (β × List α)) (a b : α) : Prop := Relation.ReflTransGen (Needs opens) a b

def Cyclic (opens : α → Except ε (β × List α)) (a : α) : Prop := Relation.TransGen (Needs opens) a a

def Broken (opens : α → Except ε (β × List α)) (a : α) : Prop := ∃ err, opens a = .error err

inductive Placed (opens : α → Except ε (β × List α)) : List (α × β) → Prop where
  | nil : Placed opens []
  | snoc {out : List (α × β)} {id : α} {value : β} {needs : List α} (earlier : Placed opens out)
      (opening : opens id = .ok (value, needs)) (after : ∀ dep ∈ needs, dep ∈ out.map Prod.fst) :
      Placed opens (out ++ [(id, value)])

structure Valid (opens : α → Except ε (β × List α)) (s : Walk α β) : Prop where
  left : ∀ id, s.state id = .left ↔ id ∈ s.ids
  opened : ∀ id, id ∈ s.opened ↔ s.state id ≠ .fresh
  nodup : s.ids.Nodup
  single : s.opened.Nodup
  placed : Placed opens s.out

structure Visits (opens : α → Except ε (β × List α)) (roots : List α) (s next : Walk α β) : Prop where
  valid : Valid opens next
  entered : ∀ id, next.state id = .entered ↔ s.state id = .entered
  kept : ∀ id, s.state id = .left → next.state id = .left
  done : ∀ id ∈ roots, next.state id = .left
  reached : ∀ id, next.state id = .left → s.state id = .left ∨ ∃ root ∈ roots, Reaches opens root id

variable {cycle : α → ε} {opens : α → Except ε (β × List α)} {s next : Walk α β} {id : α} {fuel : Nat}

theorem enter_state (other : α) : (s.enter id).state other = if other = id then .entered else s.state other := rfl

theorem enter_ids : (s.enter id).ids = s.ids := rfl

theorem leave_state (value : β) (other : α) :
    (s.leave id value).state other = if other = id then .left else s.state other := rfl

theorem leave_ids (value : β) : (s.leave id value).ids = s.ids ++ [id] := by simp [Walk.ids, Walk.leave]

omit [DecidableEq α] in
theorem nodup_snoc {names : List α} (nodup : names.Nodup) (fresh : id ∉ names) : (names ++ [id]).Nodup := by
  refine List.nodup_append.mpr ⟨nodup, List.nodup_singleton id, ?_⟩
  intro other member last also same
  exact fresh (List.mem_singleton.mp (same ▸ also) ▸ member)

omit [DecidableEq α] in
theorem start_valid : Valid opens (Walk.start : Walk α β) where
  left := by simp [Walk.start, Walk.ids]
  opened := by simp [Walk.start]
  nodup := List.nodup_nil
  single := List.nodup_nil
  placed := .nil

theorem enter_valid (valid : Valid opens s) (fresh : s.state id = .fresh) : Valid opens (s.enter id) where
  left := by
    intro other
    rw [enter_state, enter_ids, ← valid.left]
    by_cases same : other = id
    · simp [same, fresh]
    · simp [same]
  opened := by
    intro other
    rw [enter_state]
    by_cases same : other = id
    · simp [Walk.enter, same]
    · simpa [Walk.enter, same] using valid.opened other
  nodup := valid.nodup
  single := nodup_snoc valid.single fun member => (valid.opened id).mp member fresh
  placed := valid.placed

theorem leave_valid {value : β} {needs : List α} (valid : Valid opens s) (entered : s.state id = .entered)
    (opening : opens id = .ok (value, needs)) (done : ∀ dep ∈ needs, s.state dep = .left) :
    Valid opens (s.leave id value) where
  left := by
    intro other
    rw [leave_state, leave_ids]
    by_cases same : other = id
    · simp [same]
    · simpa [same] using valid.left other
  opened := by
    intro other
    rw [leave_state]
    by_cases same : other = id
    · subst same
      simpa [Walk.leave, entered] using valid.opened other
    · simpa [Walk.leave, same] using valid.opened other
  nodup := by
    rw [leave_ids]
    refine nodup_snoc valid.nodup fun member => ?_
    have left := (valid.left id).mpr member
    rw [entered] at left
    cases left
  single := valid.single
  placed := .snoc valid.placed opening fun dep member => (valid.left dep).mp (done dep member)

omit [DecidableEq α] in
theorem placed_before {out : List (α × β)} (placed : Placed opens out) {before after : List (α × β)} {value : β}
    (split : out = before ++ (id, value) :: after) :
    ∃ needs, opens id = .ok (value, needs) ∧ ∀ dep ∈ needs, dep ∈ before.map Prod.fst := by
  induction placed generalizing after with
  | nil => simp at split
  | @snoc earlier other found needs placed opening done ih =>
      rcases List.eq_nil_or_concat after with rfl | ⟨middle, last, rfl⟩
      · obtain ⟨same, ends⟩ := List.append_inj' split rfl
        obtain ⟨rfl, rfl⟩ := Prod.mk.inj (List.cons.inj ends).1
        exact ⟨needs, opening, same ▸ done⟩
      · rw [List.concat_eq_append, ← List.cons_append, ← List.append_assoc] at split
        exact ih (List.append_inj' split rfl).1

omit [DecidableEq α] in
theorem placed_needs {out : List (α × β)} (placed : Placed opens out) {dep : α} (member : id ∈ out.map Prod.fst)
    (needs : Needs opens id dep) : dep ∈ out.map Prod.fst := by
  induction placed with
  | nil => simp at member
  | @snoc earlier other found list placed opening done ih =>
      rw [List.map_append, List.mem_append] at member ⊢
      refine .inl ?_
      rcases member with earlier | last
      · exact ih earlier
      · obtain ⟨value, names, opened, needed⟩ := needs
        obtain rfl : id = other := List.mem_singleton.mp last
        obtain ⟨rfl, rfl⟩ := Prod.mk.inj (Except.ok.inj (opened.symm.trans opening))
        exact done dep needed

omit [DecidableEq α] in
theorem placed_reaches {out : List (α × β)} (placed : Placed opens out) {dep : α} (member : id ∈ out.map Prod.fst)
    (reaches : Reaches opens id dep) : dep ∈ out.map Prod.fst := by
  induction reaches with
  | refl => exact member
  | tail _ needs ih => exact placed_needs placed ih needs

-- In such an order no node needs itself, however far away, and every node has been opened.
omit [DecidableEq α] in
theorem placed_acyclic {out : List (α × β)} (placed : Placed opens out) (nodup : (out.map Prod.fst).Nodup)
    (member : id ∈ out.map Prod.fst) : ¬ Cyclic opens id := by
  induction placed with
  | nil => simp at member
  | @snoc earlier other found list placed opening done ih =>
      rw [List.map_append] at nodup member
      have apart := List.nodup_append.mp nodup
      rcases List.mem_append.mp member with inside | last
      · exact ih apart.1 inside
      · obtain rfl : id = other := List.mem_singleton.mp last
        intro cyclic
        obtain ⟨dep, ⟨value, names, opened, needed⟩, back⟩ := Relation.TransGen.head'_iff.mp cyclic
        obtain ⟨rfl, rfl⟩ := Prod.mk.inj (Except.ok.inj (opened.symm.trans opening))
        exact apart.2.2 id (placed_reaches placed (done dep needed) back) id last rfl

omit [DecidableEq α] in
theorem placed_opens {out : List (α × β)} (placed : Placed opens out) (member : id ∈ out.map Prod.fst) :
    ¬ Broken opens id := by
  rintro ⟨err, broken⟩
  obtain ⟨⟨other, value⟩, entry, rfl⟩ := List.mem_map.mp member
  obtain ⟨before, after, split⟩ := List.append_of_mem entry
  obtain ⟨needs, opening, -⟩ := placed_before placed split
  cases broken.symm.trans opening

def Above (opens : α → Except ε (β × List α)) (s : Walk α β) (id : α) : Prop :=
  ∀ above, s.state above = .entered → Relation.TransGen (Needs opens) above id

def Fails (opens : α → Except ε (β × List α)) (roots : List α) : Prop :=
  ∃ root ∈ roots, ∃ id, Reaches opens root id ∧ (Cyclic opens id ∨ Broken opens id)

omit [DecidableEq α] in
theorem visits_nil (valid : Valid opens s) : Visits opens [] s s where
  valid := valid
  entered := fun _ => Iff.rfl
  kept := fun _ => id
  done := by simp
  reached := fun _ => .inl

omit [DecidableEq α] in
theorem visits_cons {root : α} {rest : List α} {middle : Walk α β} (first : Visits opens [root] s middle)
    (later : Visits opens rest middle next) : Visits opens (root :: rest) s next where
  valid := later.valid
  entered := fun id => (later.entered id).trans (first.entered id)
  kept := fun id left => later.kept id (first.kept id left)
  done := by
    intro id member
    rcases List.mem_cons.mp member with rfl | member
    · exact later.kept id (first.done id (List.mem_singleton_self id))
    · exact later.done id member
  reached := by
    intro id left
    rcases later.reached id left with middle | ⟨root, member, reaches⟩
    · rcases first.reached id middle with old | ⟨root, member, reaches⟩
      · exact .inl old
      · exact .inr ⟨root, List.mem_cons.mpr (.inl (List.mem_singleton.mp member)), reaches⟩
    · exact .inr ⟨root, List.mem_cons_of_mem _ member, reaches⟩

omit [DecidableEq α] in
theorem each_visits {run : α → Walk α β → Option (Except ε (Walk α β))}
    (once : ∀ id s next, Valid opens s → Above opens s id → run id s = some (.ok next) → Visits opens [id] s next)
    {roots : List α} (valid : Valid opens s) (above : ∀ root ∈ roots, Above opens s root)
    (done : each run roots s = some (.ok next)) : Visits opens roots s next := by
  induction roots generalizing s with
  | nil =>
      obtain rfl := Except.ok.inj (Option.some.inj done)
      exact visits_nil valid
  | cons root rest ih =>
      rw [each] at done
      split at done
      next => cases done
      next => cases Option.some.inj done
      next middle visited =>
        have first := once root s middle valid (above root List.mem_cons_self) visited
        refine visits_cons first (ih first.valid ?_ done)
        intro later member other entered
        exact above later (List.mem_cons_of_mem _ member) other ((first.entered other).mp entered)

omit [DecidableEq α] in
theorem each_fails {run : α → Walk α β → Option (Except ε (Walk α β))}
    (once : ∀ id s next, Valid opens s → Above opens s id → run id s = some (.ok next) → Visits opens [id] s next)
    (failed : ∀ id s err, Valid opens s → Above opens s id → run id s = some (.error err) → Fails opens [id])
    {roots : List α} {err : ε} (valid : Valid opens s) (above : ∀ root ∈ roots, Above opens s root)
    (done : each run roots s = some (.error err)) : Fails opens roots := by
  induction roots generalizing s with
  | nil => cases Option.some.inj done
  | cons root rest ih =>
      rw [each] at done
      split at done
      next => cases done
      next visited =>
        obtain ⟨id, member, fails⟩ := failed root s _ valid (above root List.mem_cons_self) visited
        exact ⟨id, List.mem_cons.mpr (.inl (List.mem_singleton.mp member)), fails⟩
      next middle visited =>
        have first := once root s middle valid (above root List.mem_cons_self) visited
        have later : ∀ root ∈ rest, Above opens middle root := fun later member other entered =>
          above later (List.mem_cons_of_mem _ member) other ((first.entered other).mp entered)
        obtain ⟨id, member, fails⟩ := ih first.valid later done
        exact ⟨id, List.mem_cons_of_mem _ member, fails⟩

theorem enter_above {value : β} {needs : List α} (above : Above opens s id) (opening : opens id = .ok (value, needs)) :
    ∀ dep ∈ needs, Above opens (s.enter id) dep := by
  intro dep needed other entered
  have step : Needs opens id dep := ⟨value, needs, opening, needed⟩
  rw [enter_state] at entered
  split at entered
  next same => exact same ▸ .single step
  next => exact (above other entered).tail step

theorem visits_leave {value : β} {needs : List α} (fresh : s.state id = .fresh)
    (opening : opens id = .ok (value, needs)) (inner : Visits opens needs (s.enter id) next) :
    Visits opens [id] s (next.leave id value) where
  valid := leave_valid inner.valid ((inner.entered id).mpr (by simp [enter_state])) opening inner.done
  entered := by
    intro other
    rw [leave_state]
    by_cases same : other = id
    · simp [same, fresh]
    · simpa [same, enter_state] using inner.entered other
  kept := by
    intro other left
    rw [leave_state]
    by_cases same : other = id
    · simp [same]
    · simpa [same] using inner.kept other (by simpa [enter_state, same] using left)
  done := by simp [leave_state]
  reached := by
    intro other left
    by_cases same : other = id
    · exact .inr ⟨id, List.mem_singleton_self id, same ▸ .refl⟩
    · rcases inner.reached other (by simpa [leave_state, same] using left) with old | ⟨dep, needed, reaches⟩
      · exact .inl (by simpa [enter_state, same] using old)
      · exact .inr ⟨id, List.mem_singleton_self id, .head ⟨value, needs, opening, needed⟩ reaches⟩

theorem visit_visits (valid : Valid opens s) (above : Above opens s id)
    (done : visit cycle opens fuel id s = some (.ok next)) : Visits opens [id] s next := by
  induction fuel generalizing id s next with
  | zero => cases done
  | succ fuel ih =>
      rw [visit] at done
      split at done
      next left =>
        obtain rfl := Except.ok.inj (Option.some.inj done)
        refine ⟨valid, fun _ => Iff.rfl, fun _ kept => kept, fun other member => ?_, fun _ => .inl⟩
        exact List.mem_singleton.mp member ▸ left
      next => cases Option.some.inj done
      next fresh =>
        split at done
        next => cases Option.some.inj done
        next value needs opening =>
          split at done
          next => cases done
          next => cases Option.some.inj done
          next inner walked =>
            obtain rfl := Except.ok.inj (Option.some.inj done)
            exact visits_leave fresh opening (each_visits (fun _ _ _ => ih) (enter_valid valid fresh)
              (enter_above above opening) walked)

theorem visit_fails {err : ε} (valid : Valid opens s) (above : Above opens s id)
    (done : visit cycle opens fuel id s = some (.error err)) : Fails opens [id] := by
  induction fuel generalizing id s err with
  | zero => cases done
  | succ fuel ih =>
      rw [visit] at done
      refine ⟨id, List.mem_singleton_self id, ?_⟩
      split at done
      next => cases Option.some.inj done
      next entered => exact ⟨id, .refl, .inl (above id entered)⟩
      next fresh =>
        split at done
        next broken => exact ⟨id, .refl, .inr ⟨_, broken⟩⟩
        next value needs opening =>
          split at done
          next => cases done
          next walked =>
            obtain ⟨dep, needed, last, reaches, fails⟩ := each_fails (fun _ _ _ => visit_visits) (fun _ _ _ => ih)
              (enter_valid valid fresh) (enter_above above opening) walked
            exact ⟨last, .head ⟨value, needs, opening, needed⟩ reaches, fails⟩
          next => cases Option.some.inj done

def freshCount (known : List α) (s : Walk α β) : Nat := known.countP fun id => s.state id = .fresh

omit [DecidableEq α] in
theorem visits_fresh {roots known : List α} (visits : Visits opens roots s next) :
    freshCount known next ≤ freshCount known s := by
  refine List.countP_mono_left fun id _ fresh => ?_
  have fresh := of_decide_eq_true fresh
  refine decide_eq_true ?_
  cases before : s.state id with
  | fresh => rfl
  | entered =>
      rw [(visits.entered id).mpr before] at fresh
      cases fresh
  | left =>
      rw [visits.kept id before] at fresh
      cases fresh

theorem enter_fresh {known : List α} (member : id ∈ known) (fresh : s.state id = .fresh) :
    freshCount known (s.enter id) < freshCount known s := by
  have fewer : ∀ list : List α, freshCount list (s.enter id) ≤ freshCount list s := fun list => by
    refine List.countP_mono_left fun other _ still => ?_
    have still := of_decide_eq_true still
    rw [enter_state] at still
    split at still
    next => cases still
    next => exact decide_eq_true still
  obtain ⟨before, after, rfl⟩ := List.append_of_mem member
  have first := fewer before
  have last := fewer after
  simp only [freshCount, List.countP_append, List.countP_cons] at first last ⊢
  simp only [fresh, enter_state, if_true, decide_true]
  simp only [enter_state] at first last
  have not : decide (Mark.entered = Mark.fresh) = false := rfl
  simp only [not, Bool.false_eq_true, if_false]
  omega

theorem each_answers {known roots : List α} {bound : Nat}
    (once : ∀ id s, Valid opens s → Above opens s id → freshCount known s < bound → visit cycle opens fuel id s ≠ none)
    (valid : Valid opens s) (above : ∀ root ∈ roots, Above opens s root) (enough : freshCount known s < bound) :
    each (visit cycle opens fuel) roots s ≠ none := by
  induction roots generalizing s with
  | nil => exact Option.some_ne_none _
  | cons root rest ih =>
      rw [each]
      have answers := once root s valid (above root List.mem_cons_self) enough
      split
      next none => exact absurd none answers
      next => exact Option.some_ne_none _
      next middle visited =>
        have first := visit_visits valid (above root List.mem_cons_self) visited
        refine ih first.valid ?_ (Nat.lt_of_le_of_lt (visits_fresh first) enough)
        intro later member other entered
        exact above later (List.mem_cons_of_mem _ member) other ((first.entered other).mp entered)

theorem visit_answers {known : List α} (total : ∀ id, ¬ Broken opens id → id ∈ known) (valid : Valid opens s)
    (above : Above opens s id) (enough : freshCount known s < fuel) : visit cycle opens fuel id s ≠ none := by
  induction fuel generalizing id s with
  | zero => exact absurd enough (Nat.not_lt_zero _)
  | succ fuel ih =>
      rw [visit]
      split
      next => exact Option.some_ne_none _
      next => exact Option.some_ne_none _
      next fresh =>
        split
        next => exact Option.some_ne_none _
        next value needs opening =>
          have member : id ∈ known := total id fun ⟨err, broken⟩ => nomatch broken.symm.trans opening
          have fewer := enter_fresh member fresh
          have answers := each_answers (fun _ _ => ih) (enter_valid valid fresh) (enter_above above opening)
            (show freshCount known (s.enter id) < fuel by omega)
          split
          next none => exact absurd none answers
          next => exact Option.some_ne_none _
          next => exact Option.some_ne_none _

omit [DecidableEq α] in
theorem start_above (id : α) : Above opens (Walk.start : Walk α β) id := fun _ entered => nomatch entered

theorem walk_visits {roots : List α} (done : each (visit cycle opens fuel) roots Walk.start = some (.ok next)) :
    Visits opens roots Walk.start next :=
  each_visits (fun _ _ _ => visit_visits) start_valid (fun root _ => start_above root) done

-- From the start a walk leaves exactly what its roots reach, or it fails, exactly when they reach a cycle or a node
-- that cannot be opened.
omit [DecidableEq α] in
theorem walk_left {roots : List α} (visits : Visits opens roots Walk.start next) :
    id ∈ next.ids ↔ ∃ root ∈ roots, Reaches opens root id := by
  rw [← visits.valid.left]
  constructor
  · intro left
    rcases visits.reached id left with old | reached
    · cases old
    · exact reached
  · rintro ⟨root, member, reaches⟩
    have inside := (visits.valid.left root).mp (visits.done root member)
    exact (visits.valid.left id).mpr (placed_reaches visits.valid.placed inside reaches)

omit [DecidableEq α] in
theorem walk_opened {roots : List α} (visits : Visits opens roots Walk.start next) : next.opened.Perm next.ids := by
  refine (List.perm_ext_iff_of_nodup visits.valid.single visits.valid.nodup).mpr fun id => ?_
  rw [visits.valid.opened, ← visits.valid.left]
  cases state : next.state id with
  | fresh => simp
  | entered => exact nomatch (visits.entered id).mp state
  | left => simp

theorem walk_answers {roots known : List α} (total : ∀ id, ¬ Broken opens id → id ∈ known)
    (enough : known.length < fuel) : each (visit cycle opens fuel) roots Walk.start ≠ none :=
  each_answers (fun _ _ => visit_answers total) start_valid (fun root _ => start_above root)
    (Nat.lt_of_le_of_lt List.countP_le_length enough)

theorem walk_fails_iff {roots known : List α} (total : ∀ id, ¬ Broken opens id → id ∈ known)
    (enough : known.length < fuel) :
    (∃ err, each (visit cycle opens fuel) roots Walk.start = some (.error err)) ↔ Fails opens roots := by
  constructor
  · rintro ⟨err, done⟩
    exact each_fails (fun _ _ _ => visit_visits) (fun _ _ _ => visit_fails) start_valid
      (fun root _ => start_above root) done
  · rintro ⟨root, member, id, reaches, fails⟩
    cases done : each (visit cycle opens fuel) roots Walk.start with
    | none => exact absurd done (walk_answers total enough)
    | some result =>
        cases result with
        | error err => exact ⟨err, rfl⟩
        | ok next =>
            have visits := walk_visits done
            have inside := (walk_left visits).mpr ⟨root, member, reaches⟩
            rcases fails with cyclic | broken
            · exact absurd cyclic (placed_acyclic visits.valid.placed visits.valid.nodup inside)
            · exact absurd broken (placed_opens visits.valid.placed inside)

end Postorder
