/-
Milp.Proofs.KeyedFamilies — a family has one new variable for each distinct key.

Three orders meet in a keyed family. Keys are listed as the caller has them, with
repeats; variables are made, and identities taken, in the order in which the keys
appear first; the family lists its members in the order of keys.
`Workspace.newMap_eq` says what is made and where it is listed, and
`Workspace.MakesFamily` what follows for each order. Made key by key
(`Workspace.addMember`), where a key that is there is skipped and a new one goes to its
place, the family is the same (`Workspace.newMap_eq_foldl`).

Whether members of an enumeration repeat is seen in their sorted list: equal keys stand
next to each other there, and the first two that do are the least that repeat
(`Key.repeated?_eq_some`).
-/
import Mathlib
import Milp.Proofs.ModelVariables
import Milp.Workspace.Family

namespace Milp

/-! ## The order of keys -/

namespace Key

theorem le_refl (a : Key) : a.le a = true := by
  cases a with
  | text s => simp [le]
  | int i => simp [le]

theorem le_total (a b : Key) : (a.le b || b.le a) = true := by
  cases a <;> cases b <;> simp [le, String.le_total, Int.le_total]

theorem le_trans (a b c : Key) (hab : a.le b = true) (hbc : b.le c = true) : a.le c = true := by
  cases a with
  | int i =>
    cases c with
    | text u => rfl
    | int k =>
      cases b with
      | text t => cases hbc
      | int j =>
        simp only [le, decide_eq_true_eq] at *
        omega
  | text s =>
    cases b with
    | int j => cases hab
    | text t =>
      cases c with
      | int k => cases hbc
      | text u =>
        simp only [le, decide_eq_true_eq] at *
        exact String.le_trans hab hbc

theorem le_antisymm {a b : Key} (hab : a.le b = true) (hba : b.le a = true) : a = b := by
  cases a with
  | int i =>
    cases b with
    | text t => cases hba
    | int j =>
      simp only [le, decide_eq_true_eq] at *
      rw [Int.le_antisymm hab hba]
  | text s =>
    cases b with
    | int j => cases hab
    | text t =>
      simp only [le, decide_eq_true_eq] at *
      rw [String.le_antisymm hab hba]

/-- Strictly before in the order of keys. -/
def Before (a b : Key) : Prop := a.le b = true ∧ a ≠ b

/-- Both are texts, or both are integers. -/
def SameKind : Key → Key → Prop
  | text _, text _ => True
  | int _, int _ => True
  | _, _ => False

/-- Keys of one kind are told by their texts. -/
theorem eq_of_toText {a b : Key} (hkind : a.SameKind b) (h : a.toText = b.toText) : a = b := by
  cases a <;> cases b <;> simp only [SameKind, toText] at hkind h
  · rw [h]
  · rw [Int.toString_eq_repr, Int.toString_eq_repr] at h
    rw [Int.repr_injective h]

/-! ### Repeated keys -/

/-- Of sorted keys, only one that stands next to another can equal it. -/
theorem not_mem_of_sorted {a b : Key} {rest : List Key}
    (hsorted : (a :: b :: rest).Pairwise fun a b => a.le b = true) (hne : a ≠ b) :
    a ∉ b :: rest := by
  intro hmem
  obtain ⟨hfirst, hrest⟩ := List.pairwise_cons.mp hsorted
  rcases List.mem_cons.mp hmem with hab | hmem
  · exact hne hab
  · have hba : b.le a = true := (List.pairwise_cons.mp hrest).1 a hmem
    exact hne (le_antisymm (hfirst b List.mem_cons_self) hba)

/-- Of sorted keys none stands twice in a row exactly if none repeats. -/
theorem repeated?_eq_none_iff {keys : List Key}
    (hsorted : keys.Pairwise fun a b => a.le b = true) : repeated? keys = none ↔ keys.Nodup := by
  fun_induction repeated? keys with
  | case1 a rest => simp
  | case2 a b rest hne ih =>
    rw [ih (List.pairwise_cons.mp hsorted).2, List.nodup_cons (a := a)]
    exact ⟨fun hrest => ⟨not_mem_of_sorted hsorted hne, hrest⟩, And.right⟩
  | case3 keys hshort =>
    match keys with
    | [] => simp
    | [a] => simp
    | a :: b :: rest => exact absurd rfl (hshort a b rest)

/-- Of sorted keys the first that stands twice in a row is the least that
repeats. -/
theorem repeated?_eq_some {keys : List Key} {key : Key}
    (hsorted : keys.Pairwise fun a b => a.le b = true) (h : repeated? keys = some key) :
    2 ≤ keys.count key ∧ ∀ other, 2 ≤ keys.count other → key.le other = true := by
  fun_induction repeated? keys with
  | case1 a rest =>
    obtain rfl := Option.some.inj h
    refine ⟨by simp, fun other hother => ?_⟩
    have hmem : other ∈ a :: a :: rest := List.count_pos_iff.mp (by omega)
    rcases List.mem_cons.mp hmem with hsame | hmem
    · rw [hsame]
      exact le_refl a
    · exact (List.pairwise_cons.mp hsorted).1 other hmem
  | case2 a b rest hne ih =>
    obtain ⟨hcount, hleast⟩ := ih (List.pairwise_cons.mp hsorted).2 h
    have honce : a ∉ b :: rest := not_mem_of_sorted hsorted hne
    refine ⟨Nat.le_trans hcount List.count_le_count_cons, fun other hother => ?_⟩
    by_cases hsame : a = other
    · subst hsame
      rw [List.count_cons_self, List.count_eq_zero.mpr honce] at hother
      omega
    · rw [List.count_cons_of_ne hsame] at hother
      exact hleast other hother
  | case3 keys hshort => cases h

end Key

/-! ## New variables -/

/-- The name is given unless the base is empty. -/
theorem FamilySpec.ofGiven_member {α : Type} (f : FamilySpec α) (key : String)
    (id : VariableId) : VariableName.ofGiven (f.member key).name id
      = if f.base = "" then .numbered id else .given (f.base ++ "_" ++ key) := by
  by_cases hbase : f.base = ""
  · simp [member, VariableName.ofGiven, hbase]
  · simp [member, VariableName.ofGiven, hbase]

theorem map_fst_mapIdx {β γ : Type} (g : Nat → γ) (l : List β) :
    (l.mapIdx fun i b => (b, g i)).map Prod.fst = l :=
  List.ext_getElem (by simp) (by simp)

theorem length_eraseDups {β : Type} [DecidableEq β] (l : List β) :
    l.eraseDups.length = l.toFinset.card := by
  rw [← List.toFinset_card_of_nodup (nodup_eraseDups l)]
  congr 1
  ext b
  simp

namespace Workspace

variable {α μ : Type}

theorem newVariables_eq (specs : List (VariableSpec α)) (ws : Workspace α μ) :
    ws.newVariables specs = ({ ws with
        vars := ws.vars ++ specs.mapIdx fun i spec => .ofSpec (ws.nextVariable + i) spec
        nextVariable := ws.nextVariable + specs.length },
      specs.mapIdx fun i _ => ⟨ws.vars.length + i⟩) := by
  induction specs generalizing ws with
  | nil => simp [newVariables]
  | cons spec rest ih =>
    simp [newVariables, ih, newVariable, drawVariableId, List.mapIdx_cons, Nat.add_assoc,
      Nat.add_comm 1]

theorem newMap_eq (keys : List Key) (f : FamilySpec α) (ws : Workspace α μ) :
    ws.newMap keys f = ({ ws with
        vars := ws.vars ++ keys.eraseDups.mapIdx fun i key =>
          .ofSpec (ws.nextVariable + i) (f.member key.toText)
        nextVariable := ws.nextVariable + keys.eraseDups.length },
      (keys.eraseDups.mapIdx fun i key => (key, ⟨ws.vars.length + i⟩)).mergeSort
        fun a b => a.1.le b.1) := by
  have hmade : ((keys.eraseDups.map fun key => f.member key.toText).mapIdx fun i spec =>
      Variable.ofSpec (ws.nextVariable + i) spec) = keys.eraseDups.mapIdx fun i key =>
        .ofSpec (ws.nextVariable + i) (f.member key.toText) :=
    List.ext_getElem (by simp) (by simp)
  have hzip : (keys.eraseDups.zip ((keys.eraseDups.map fun key => f.member key.toText).mapIdx
      fun i _ => VariableRef.mk (ws.vars.length + i))) = keys.eraseDups.mapIdx fun i key =>
        (key, ⟨ws.vars.length + i⟩) :=
    List.ext_getElem (by simp) (by simp)
  rw [newMap, newVariables_eq, hmade, List.length_map]
  dsimp only
  rw [hzip]

variable {keys : List Key} {f : FamilySpec α} {ws : Workspace α μ}

theorem mem_newMap_iff {key : Key} {v : VariableRef} : (key, v) ∈ (ws.newMap keys f).2 ↔
    ∃ i, keys.eraseDups[i]? = some key ∧ v = ⟨ws.vars.length + i⟩ := by
  rw [newMap_eq, List.mem_mergeSort, List.mem_iff_getElem?]
  simp only [List.getElem?_mapIdx, Option.map_eq_some_iff, Prod.mk.injEq]
  constructor
  · rintro ⟨i, key, hkey, rfl, rfl⟩
    exact ⟨i, hkey, rfl⟩
  · rintro ⟨i, hkey, rfl⟩
    exact ⟨i, key, hkey, rfl, rfl⟩

theorem map_fst_newMap_perm : ((ws.newMap keys f).2.map Prod.fst).Perm keys.eraseDups := by
  rw [newMap_eq]
  exact ((List.mergeSort_perm _ _).map Prod.fst).trans (.of_eq (map_fst_mapIdx _ _))

theorem nodup_map_fst_newMap : ((ws.newMap keys f).2.map Prod.fst).Nodup :=
  map_fst_newMap_perm.nodup_iff.mpr (nodup_eraseDups keys)

/-- The keys stand in their order. -/
theorem sorted_map_fst_newMap : ((ws.newMap keys f).2.map Prod.fst).Pairwise Key.Before := by
  refine .and ?_ nodup_map_fst_newMap
  rw [newMap_eq, List.pairwise_map]
  exact List.pairwise_mergeSort (fun a b c => Key.le_trans a.1 b.1 c.1)
    (fun a b => Key.le_total a.1 b.1) _

/-! ### Key by key -/

/-- Makes the variable of a key, unless there is one already. -/
def addMember (f : FamilySpec α) (made : Workspace α μ × List (Key × VariableRef)) (key : Key) :
    Workspace α μ × List (Key × VariableRef) :=
  if key ∈ made.2.map Prod.fst then made
  else
    let (ws, v) := made.1.newVariable (f.member key.toText)
    (ws, made.2.orderedInsert (fun a b => a.1.le b.1 = true) (key, v))

/-- Behind entries with other keys, sorting puts an entry at the place of its key. -/
theorem mergeSort_concat {entries : List (Key × VariableRef)} {entry : Key × VariableRef}
    (hkeys : ((entries ++ [entry]).map Prod.fst).Nodup) :
    (entries ++ [entry]).mergeSort (fun a b => a.1.le b.1)
      = (entries.mergeSort fun a b => a.1.le b.1).orderedInsert
        (fun a b => a.1.le b.1 = true) entry := by
  have htrans : ∀ a b c : Key × VariableRef, a.1.le b.1 = true → b.1.le c.1 = true →
      a.1.le c.1 = true := fun a b c => Key.le_trans a.1 b.1 c.1
  have htotal : ∀ a b : Key × VariableRef, (a.1.le b.1 || b.1.le a.1) = true :=
    fun a b => Key.le_total a.1 b.1
  have : IsTrans (Key × VariableRef) fun a b => a.1.le b.1 = true := ⟨htrans⟩
  have : Std.Total fun a b : Key × VariableRef => a.1.le b.1 = true :=
    ⟨fun a b => by simpa using htotal a b⟩
  have hperm : ((entries ++ [entry]).mergeSort fun a b => a.1.le b.1).Perm
      ((entries.mergeSort fun a b => a.1.le b.1).orderedInsert
        (fun a b => a.1.le b.1 = true) entry) :=
    calc List.Perm _ (entries ++ [entry]) := List.mergeSort_perm ..
      List.Perm _ (entry :: entries) := List.perm_append_singleton ..
      List.Perm _ (entry :: entries.mergeSort fun a b => a.1.le b.1) :=
        (List.mergeSort_perm ..).symm.cons entry
      List.Perm _ _ := (List.perm_orderedInsert ..).symm
  refine hperm.eq_of_pairwise ?_ (List.pairwise_mergeSort htrans htotal _)
    ((List.pairwise_mergeSort htrans htotal _).orderedInsert entry _)
  intro a b ha hb hab hba
  rw [List.mem_mergeSort] at ha
  rw [← hperm.mem_iff, List.mem_mergeSort] at hb
  exact List.inj_on_of_nodup_map hkeys ha hb (Key.le_antisymm hab hba)

/-- One key more is one step more. -/
theorem newMap_concat (keys : List Key) (key : Key) (f : FamilySpec α) (ws : Workspace α μ) :
    ws.newMap (keys ++ [key]) f = addMember f (ws.newMap keys f) key := by
  have hmem : key ∈ (ws.newMap keys f).2.map Prod.fst ↔ key ∈ keys := by
    rw [map_fst_newMap_perm.mem_iff, List.mem_eraseDups]
  by_cases hkey : key ∈ keys
  · rw [addMember, if_pos (hmem.mpr hkey), newMap_eq, newMap_eq, eraseDups_concat, if_pos hkey]
  · have hfst := map_fst_mapIdx (fun i => VariableRef.mk (ws.vars.length + i))
      (keys.eraseDups ++ [key])
    have hnodup := nodup_eraseDups (keys ++ [key])
    rw [eraseDups_concat, if_neg hkey, ← hfst, List.mapIdx_append_one] at hnodup
    rw [addMember, if_neg (mt hmem.mp hkey), newMap_eq (keys ++ [key]), eraseDups_concat,
      if_neg hkey, List.mapIdx_append_one, List.mapIdx_append_one, mergeSort_concat hnodup,
      newMap_eq]
    simp [newVariable, drawVariableId, Nat.add_assoc]

/-- A keyed family can be made key by key. -/
theorem newMap_eq_foldl (keys : List Key) (f : FamilySpec α) (ws : Workspace α μ) :
    ws.newMap keys f = keys.foldl (addMember f) (ws, []) := by
  induction keys using List.reverseRecOn with
  | nil => simp [newMap_eq]
  | append_singleton keys key ih => rw [newMap_concat, ih, List.foldl_concat]

/-! ## Enumerations -/

variable {enumeration : String} {members : List Key}

theorem sorted_mergeSort_keys (keys : List Key) :
    (keys.mergeSort Key.le).Pairwise fun a b => a.le b = true :=
  List.pairwise_mergeSort Key.le_trans Key.le_total keys

theorem newEnumeration_of_nodup (hne : members ≠ []) (hnodup : members.Nodup) :
    ws.newEnumeration enumeration members f
      = ((ws.newMap members f).1, .ok (ws.newMap members f).2) := by
  have hnone : Key.repeated? (members.mergeSort Key.le) = none := by
    rw [Key.repeated?_eq_none_iff (sorted_mergeSort_keys members)]
    exact (List.mergeSort_perm ..).nodup_iff.mpr hnodup
  rw [newEnumeration, if_neg (by simpa using hne), hnone]

theorem newEnumeration_of_not_nodup (hnodup : ¬ members.Nodup) :
    ∃ key, ws.newEnumeration enumeration members f
        = (ws, .error (.repeatedMember enumeration key.toText))
      ∧ 2 ≤ members.count key ∧ ∀ other, 2 ≤ members.count other → key.le other = true := by
  have hne : members ≠ [] := by
    intro hnil
    exact hnodup (hnil ▸ List.nodup_nil)
  have hperm := List.mergeSort_perm members Key.le
  cases hfirst : Key.repeated? (members.mergeSort Key.le) with
  | none =>
    rw [Key.repeated?_eq_none_iff (sorted_mergeSort_keys members), hperm.nodup_iff] at hfirst
    exact absurd hfirst hnodup
  | some key =>
    have hleast := Key.repeated?_eq_some (sorted_mergeSort_keys members) hfirst
    simp only [hperm.count_eq] at hleast
    refine ⟨key, ?_, hleast⟩
    rw [newEnumeration, if_neg (by simpa using hne), hfirst]

/-- Without members, or with one that repeats, nothing is made. -/
theorem newEnumeration_fails (h : ¬ (members ≠ [] ∧ members.Nodup)) :
    ∃ e, ws.newEnumeration enumeration members f = (ws, .error e) ∧ e.kind = .invalidArgument := by
  by_cases hnodup : members.Nodup
  · have hnil : members = [] := by
      by_contra hne
      exact h ⟨hne, hnodup⟩
    subst hnil
    exact ⟨_, rfl, rfl⟩
  · obtain ⟨key, hfails, -⟩ := newEnumeration_of_not_nodup hnodup
    exact ⟨_, hfails, rfl⟩

/-! ## Families -/

variable [Scalar α]

theorem variableAt_newMap_of_lt {v : VariableRef} (hv : v.index < ws.vars.length) :
    (ws.newMap keys f).1.variableAt v = ws.variableAt v := by
  rw [newMap_eq, variableAt, variableAt, List.getD_append _ _ _ _ hv]

theorem variableAt_newMap {i : Nat} {key : Key} (hkey : keys.eraseDups[i]? = some key) :
    (ws.newMap keys f).1.variableAt ⟨ws.vars.length + i⟩
      = .ofSpec (ws.nextVariable + i) (f.member key.toText) := by
  rw [newMap_eq, variableAt, List.getD_append_right _ _ _ _ (Nat.le_add_right ..)]
  simp [List.getD_eq_getElem?_getD, hkey]

/-- From `ws` to `ws'` the variables of a family are made, one for each distinct
key. -/
structure MakesFamily (keys : List Key) (f : FamilySpec α) (ws ws' : Workspace α μ)
    (members : List (Key × VariableRef)) : Prop where
  /-- The keys are those that are listed. -/
  mem_keys : ∀ key, key ∈ members.map Prod.fst ↔ key ∈ keys
  /-- Each is there once, and they stand in their order. -/
  sorted : (members.map Prod.fst).Pairwise Key.Before
  /-- There are as many new variables as distinct keys. -/
  size : ws'.vars.length = ws.vars.length + keys.toFinset.card
  /-- As many identities are taken. -/
  taken : ws'.nextVariable = ws.nextVariable + keys.toFinset.card
  /-- The identities follow each other in the order in which the keys appear first,
  and the variables are new in every other respect. -/
  made : ∀ i key, (firstOccurrences keys)[i]? = some key → ∃ v, (key, v) ∈ members
    ∧ ws.vars.length ≤ v.index ∧ v.index < ws'.vars.length ∧ ws'.variableAt v = {
      id := ws.nextVariable + i
      name := if f.base = "" then .numbered (ws.nextVariable + i)
        else .given (f.base ++ "_" ++ key.toText)
      lower := f.lower
      upper := f.upper
      kind := f.kind
      freeze := .unfrozen
      assigned := none
      handles := [] }
  /-- No variable had one of them before. -/
  fresh : ∀ e ∈ members, ∀ v : VariableRef, v.index < ws.vars.length →
    (ws'.variableAt e.2).id ≠ (ws.variableAt v).id
  /-- The variables that were there stay as they are. -/
  kept : ∀ v : VariableRef, v.index < ws.vars.length → ws'.variableAt v = ws.variableAt v
  /-- Nothing but variables and identities is touched. -/
  apart : ws' = { ws with vars := ws'.vars, nextVariable := ws'.nextVariable }
  /-- Different keys make different names, if all are texts or all are integers. -/
  names : (∀ a ∈ keys, ∀ b ∈ keys, a.SameKind b) → (members.map fun e => ws'.nameOf e.2).Nodup

theorem nameOf_newMap {i : Nat} {key : Key} (hkey : keys.eraseDups[i]? = some key) :
    (ws.newMap keys f).1.nameOf ⟨ws.vars.length + i⟩
      = if f.base = "" then "Var_" ++ toString (ws.nextVariable + i)
        else f.base ++ "_" ++ key.toText := by
  rw [nameOf, variableAt_newMap hkey, Variable.ofSpec, f.ofGiven_member]
  split <;> rfl

theorem nodup_nameOf_newMap (hkind : ∀ a ∈ keys, ∀ b ∈ keys, a.SameKind b) :
    ((ws.newMap keys f).2.map fun e => (ws.newMap keys f).1.nameOf e.2).Nodup := by
  have hfst : ((ws.newMap keys f).2.map Prod.fst).Nodup := nodup_map_fst_newMap
  refine (List.nodup_map_iff_inj_on hfst.of_map).mpr ?_
  rintro ⟨a, v⟩ ha ⟨b, w⟩ hb hname
  refine List.inj_on_of_nodup_map hfst ha hb ?_
  obtain ⟨i, hi, rfl⟩ := mem_newMap_iff.mp ha
  obtain ⟨j, hj, rfl⟩ := mem_newMap_iff.mp hb
  rw [nameOf_newMap hi, nameOf_newMap hj] at hname
  by_cases hbase : f.base = ""
  · -- the identities are different, and so are their digits
    rw [if_pos hbase, if_pos hbase, String.append_right_inj, Nat.toString_eq_repr,
      Nat.toString_eq_repr, Nat.repr_inj] at hname
    rw [Nat.add_left_cancel hname, hj] at hi
    exact (Option.some.inj hi).symm
  · rw [if_neg hbase, if_neg hbase, String.append_right_inj] at hname
    have hmem : ∀ {i key}, keys.eraseDups[i]? = some key → key ∈ keys :=
      fun h => List.mem_eraseDups.mp (List.mem_of_getElem? h)
    exact Key.eq_of_toText (hkind a (hmem hi) b (hmem hj)) hname

theorem makesFamily_newMap (hids : ws.NumberedOnce) (keys : List Key) (f : FamilySpec α) :
    MakesFamily keys f ws (ws.newMap keys f).1 (ws.newMap keys f).2 where
  mem_keys key := by rw [map_fst_newMap_perm.mem_iff, List.mem_eraseDups]
  sorted := sorted_map_fst_newMap
  size := by
    rw [newMap_eq, List.length_append, List.length_mapIdx, length_eraseDups]
  taken := by rw [newMap_eq, length_eraseDups]
  made i key hkey := by
    rw [← eraseDups_eq_firstOccurrences] at hkey
    have hlt : i < keys.eraseDups.length := (List.getElem?_eq_some_iff.mp hkey).1
    refine ⟨⟨ws.vars.length + i⟩, mem_newMap_iff.mpr ⟨i, hkey, rfl⟩, Nat.le_add_right .., ?_, ?_⟩
    · rw [newMap_eq, List.length_append, List.length_mapIdx]
      exact Nat.add_lt_add_left hlt _
    · rw [variableAt_newMap hkey, Variable.ofSpec, f.ofGiven_member]
      rfl
  fresh := by
    rintro ⟨key, w⟩ he v hv
    obtain ⟨i, hi, rfl⟩ := mem_newMap_iff.mp he
    have hold : (ws.variableAt v).id < ws.nextVariable := hids.lt hv
    rw [variableAt_newMap hi]
    exact Nat.ne_of_gt (Nat.lt_of_lt_of_le hold (Nat.le_add_right ..))
  kept _ hv := variableAt_newMap_of_lt hv
  apart := by rw [newMap_eq]
  names := nodup_nameOf_newMap

/-- Making variables is a course of its own. -/
theorem Arises.newVariables (hws : ws.Arises) (specs : List (VariableSpec α)) :
    (ws.newVariables specs).1.Arises := by
  induction specs generalizing ws with
  | nil => exact hws
  | cons spec rest ih =>
    have hquiet : (Conduct.answering (.ofStatus .infeasible "") : Conduct α μ).Follows
        Rule.inRange fun _ => True := .quiet (fun _ _ _ ws => .refl ws) (fun _ _ ws => .refl ws)
    have hmade : (ws.course _ [.move (.newVariable spec)]).Arises :=
      hws.course hquiet ⟨trivial, trivial⟩
    exact ih hmade

/-- Of a list of keys, repeats and all, a family has each key once. Its variables are
made in the order in which the keys appear first, with identities that follow each
other and that nothing had before, and are named by their keys; making them key by
key comes to the same, and leads to a state like any other. Over the members of an
enumeration the family is made exactly if there are some and none repeats;
otherwise nothing is made, the argument is invalid, and the least of the members that
repeat is named, if one does. -/
theorem keyed_families (hws : ws.Arises) (keys : List Key) (f : FamilySpec α)
    (enumeration : String) :
    MakesFamily keys f ws (ws.newMap keys f).1 (ws.newMap keys f).2
      ∧ ws.newMap keys f = keys.foldl (addMember f) (ws, [])
      ∧ (ws.newMap keys f).1.Arises
      ∧ (keys ≠ [] ∧ keys.Nodup → ws.newEnumeration enumeration keys f
        = ((ws.newMap keys f).1, .ok (ws.newMap keys f).2))
      ∧ (¬ (keys ≠ [] ∧ keys.Nodup) → ∃ e, ws.newEnumeration enumeration keys f = (ws, .error e)
        ∧ e.kind = .invalidArgument)
      ∧ (¬ keys.Nodup → ∃ key, ws.newEnumeration enumeration keys f
          = (ws, .error (.repeatedMember enumeration key.toText))
        ∧ 2 ≤ keys.count key ∧ ∀ other, 2 ≤ keys.count other → key.le other = true) := by
  refine ⟨makesFamily_newMap hws.numberedOnce keys f, newMap_eq_foldl keys f ws, ?_, ?_, ?_, ?_⟩
  · exact hws.newVariables _
  · rintro ⟨hne, hnodup⟩
    exact newEnumeration_of_nodup hne hnodup
  · intro h
    exact newEnumeration_fails h
  · intro hnodup
    exact newEnumeration_of_not_nodup hnodup

/-! ## Routes that repeat -/

/-- The first and the second key come twice. -/
def routeKeys : List Key := [.int 5, .int (-3), .int 5, .int 2, .int (-3)]

def flowFamily : FamilySpec Exact where
  base := "flow"
  lower := 0
  upper := .finite 10
  kind := .continuous

/-- Behind three variables, route `5` is made first and listed last; all three have
names of their own. As an enumeration the routes repeat, and of the two that do the
lesser is named. -/
theorem family_routeKeys :
    (scatteredWorkspace.newMap routeKeys flowFamily).2
        = [(.int (-3), ⟨4⟩), (.int 2, ⟨5⟩), (.int 5, ⟨3⟩)]
      ∧ ((scatteredWorkspace.newMap routeKeys flowFamily).2.map fun e =>
        (scatteredWorkspace.newMap routeKeys flowFamily).1.nameOf e.2).Nodup
      ∧ (∀ v : VariableRef, v.index < 3 →
        ((scatteredWorkspace.newMap routeKeys flowFamily).1.variableAt ⟨3⟩).id
          ≠ (scatteredWorkspace.variableAt v).id)
      ∧ scatteredWorkspace.newEnumeration "Route" routeKeys flowFamily
        = (scatteredWorkspace, .error (.repeatedMember "Route" "-3")) := by
  obtain ⟨hfamily, hloop, -, -, -, hrepeats⟩ :=
    keyed_families arises_scatteredWorkspace routeKeys flowFamily "Route"
  have hmembers : (scatteredWorkspace.newMap routeKeys flowFamily).2
      = [(.int (-3), ⟨4⟩), (.int 2, ⟨5⟩), (.int 5, ⟨3⟩)] := by
    rw [hloop]
    decide +kernel
  have hkind : ∀ a ∈ routeKeys, ∀ b ∈ routeKeys, a.SameKind b := by
    simp [routeKeys, Key.SameKind]
  have hsize : scatteredWorkspace.vars.length = 3 := by decide +kernel
  refine ⟨hmembers, hfamily.names hkind, fun v hv => ?_, ?_⟩
  · exact hfamily.fresh (.int 5, ⟨3⟩) (by rw [hmembers]; decide) v (hsize ▸ hv)
  · obtain ⟨key, hfails, hcount, hleast⟩ := hrepeats (by decide)
    have hle : key.le (.int (-3)) = true := hleast (.int (-3)) (by decide)
    have hmem : key ∈ routeKeys := List.count_pos_iff.mp (by omega)
    have hge : (Key.int (-3)).le key = true :=
      (show ∀ k ∈ routeKeys, (Key.int (-3)).le k = true by decide) key hmem
    rw [hfails, Key.le_antisymm hle hge]
    rfl

end Workspace

end Milp
