import Mathlib.Data.List.Basic

set_option autoImplicit false

universe u v

-- The members of a JSON object as a map reads them: in the order of their names, and of two with one name the last.
namespace JsonObject

variable {κ : Type u} {α β : Type v} [DecidableEq κ] [LT κ] [DecidableLT κ]

def put (key : κ) (value : α) : List (κ × α) → List (κ × α)
  | [] => [(key, value)]
  | (name, old) :: rest =>
      if key = name then (key, value) :: rest
      else if key < name then (key, value) :: (name, old) :: rest
      else (name, old) :: put key value rest

def readInto (members : List (κ × α)) : List (κ × α) → List (κ × α)
  | [] => members
  | (name, value) :: rest => readInto (put name value members) rest

def read (written : List (κ × α)) : List (κ × α) := readInto [] written

omit [LT κ] [DecidableLT κ] in
theorem lookup_own (key : κ) (value : α) (rest : List (κ × α)) : ((key, value) :: rest).lookup key = some value := by
  rw [List.lookup_cons_self]

omit [LT κ] [DecidableLT κ] in
theorem lookup_other {key name : κ} (other : key ≠ name) (value : α) (rest : List (κ × α)) :
    ((name, value) :: rest).lookup key = rest.lookup key := by
  rw [List.lookup_cons, beq_false_of_ne other]

theorem lookup_put_self (key : κ) (value : α) (members : List (κ × α)) :
    (put key value members).lookup key = some value := by
  induction members with
  | nil => exact lookup_own key value []
  | cons member rest ih =>
      obtain ⟨name, old⟩ := member
      rw [put]
      split_ifs with same less
      · exact lookup_own key value rest
      · exact lookup_own key value _
      · rw [lookup_other same, ih]

theorem lookup_put_other {key other : κ} (different : other ≠ key) (value : α) (members : List (κ × α)) :
    (put key value members).lookup other = members.lookup other := by
  induction members with
  | nil => exact lookup_other different value []
  | cons member rest ih =>
      obtain ⟨name, old⟩ := member
      rw [put]
      split_ifs with same less
      · subst same
        rw [lookup_other different, lookup_other different]
      · rw [lookup_other different]
      · by_cases here : other = name
        · subst here
          rw [lookup_own, lookup_own]
        · rw [lookup_other here, lookup_other here, ih]

omit [LT κ] [DecidableLT κ] in
theorem lookup_absent {key : κ} {members : List (κ × α)} (absent : key ∉ members.map Prod.fst) :
    members.lookup key = none := by
  induction members with
  | nil => rfl
  | cons member rest ih =>
      rw [List.map_cons, List.mem_cons, not_or] at absent
      rw [lookup_other absent.1, ih absent.2]

theorem lookup_readInto {written : List (κ × α)} (once : (written.map Prod.fst).Nodup) (members : List (κ × α)) (key : κ) :
    (readInto members written).lookup key = (written.lookup key <|> members.lookup key) := by
  induction written generalizing members with
  | nil => rfl
  | cons member rest ih =>
      obtain ⟨name, value⟩ := member
      rw [List.map_cons, List.nodup_cons] at once
      rw [readInto, ih once.2]
      by_cases here : key = name
      · subst here
        rw [lookup_absent once.1, lookup_put_self, lookup_own]
        rfl
      · rw [lookup_put_other here, lookup_other here]

theorem lookup_read {written : List (κ × α)} (once : (written.map Prod.fst).Nodup) (key : κ) :
    (read written).lookup key = written.lookup key := by
  rw [read, lookup_readInto once]
  cases written.lookup key <;> rfl

omit [LT κ] [DecidableLT κ] in
theorem eq_of_lookup {a b : List (κ × α)} (names : a.map Prod.fst = b.map Prod.fst) (once : (a.map Prod.fst).Nodup)
    (same : ∀ key, a.lookup key = b.lookup key) : a = b := by
  induction a generalizing b with
  | nil => exact (List.map_eq_nil_iff.mp names.symm).symm
  | cons member rest ih =>
      cases b with
      | nil => cases names
      | cons other others =>
          obtain ⟨name, value⟩ := member
          obtain ⟨name', value'⟩ := other
          obtain ⟨rfl, tails⟩ := List.cons.inj names
          rw [List.map_cons, List.nodup_cons] at once
          have values := same name
          rw [lookup_own, lookup_own] at values
          have later (key : κ) : rest.lookup key = others.lookup key := by
            by_cases here : key = name
            · subst here
              rw [lookup_absent once.1, lookup_absent (tails ▸ once.1)]
            · have agrees := same key
              rwa [lookup_other here, lookup_other here] at agrees
          rw [Option.some.inj values, ih tails once.2 later]

theorem read_eq_iff {a b : List (κ × α)} (names : a.map Prod.fst = b.map Prod.fst) (once : (a.map Prod.fst).Nodup) :
    read a = read b ↔ a = b := by
  refine ⟨fun same => eq_of_lookup names once fun key => ?_, congrArg read⟩
  rw [← lookup_read once, same, lookup_read (names ▸ once)]

def mapValues (f : κ → α → β) (members : List (κ × α)) : List (κ × β) :=
  members.map fun member => (member.1, f member.1 member.2)

theorem mapValues_put (f : κ → α → β) (key : κ) (value : α) (members : List (κ × α)) :
    mapValues f (put key value members) = put key (f key value) (mapValues f members) := by
  induction members with
  | nil => rfl
  | cons member rest ih =>
      obtain ⟨name, old⟩ := member
      change mapValues f (put key value ((name, old) :: rest)) = put key (f key value) ((name, f name old) :: mapValues f rest)
      rw [put, put]
      split_ifs with same less
      · rfl
      · rfl
      · rw [← ih]
        rfl

theorem mapValues_readInto (f : κ → α → β) (written members : List (κ × α)) :
    mapValues f (readInto members written) = readInto (mapValues f members) (mapValues f written) := by
  induction written generalizing members with
  | nil => rfl
  | cons member rest ih =>
      obtain ⟨name, value⟩ := member
      rw [readInto, ih, mapValues_put]
      rfl

theorem mapValues_read (f : κ → α → β) (written : List (κ × α)) : mapValues f (read written) = read (mapValues f written) :=
  mapValues_readInto f written []

end JsonObject
