import SignalSugar.Proofs.ScopeTable
/-!
# Handing out fresh names

A rewrite asks the scope table for fresh names one after another (`Scopes.generateUid`), each
for a hint in a scope. `Scopes.Issues t log t'` records such a run: the requests in order, each
with the scope it was made in and the name it got, and the table they leave.

From a sound table the run hands names out well (`Scopes.HandsOut`): each name is free where
it was asked for, spelled nowhere in the table's names and bound nowhere on the scope chain;
none is a name the table knew at the start; and no two are the same.

Each request settles on an attempt of its stem's progression. The search starts after the
scope's counter for the stem and is bounded by `names.length + 1` tries; on a sound table the
bound never stops it, so the attempt is the first free one (`Scopes.LeastFree`), whatever the
runs of taken names the search has to pass.

## Main results

* `Scopes.Issues.handsOut`: from a sound table, every request gets a name free where it was
  made, and the table stays sound.
* `Scopes.HandsOut.not_mem_names`: no name handed out is one the table knew.
* `Scopes.HandsOut.nodup`: no name is handed out twice.
* `Scopes.generateUid_first_free`: a request answers the first free attempt after its scope's
  counter, moves the counter there, declares the name in its scope and changes no other scope
  (`Scopes.Grants`); a later request for the same stem in the same scope settles on a later
  attempt, whatever requests come between.
-/

namespace SignalSugar.Scopes

/-- `Issues t log t'`: the table `t'` is `t` after the requests of `log`, in order; an entry
is the scope of a request and the name it got. -/
inductive Issues : Scopes → List (Nat × String) → Scopes → Prop
  | nil (t : Scopes) : Issues t [] t
  | cons {t t' : Scopes} {log : List (Nat × String)} (s : Nat) (hint : String) :
      Issues (t.generateUid s hint).1 log t' →
      Issues t ((s, (t.generateUid s hint).2) :: log) t'

/-- `HandsOut t log t'`: the same run, where every name was free in the scope it was asked for
in, in the table of that moment. -/
inductive HandsOut : Scopes → List (Nat × String) → Scopes → Prop
  | nil (t : Scopes) : HandsOut t [] t
  | cons {t t' : Scopes} {log : List (Nat × String)} (s : Nat) (hint : String) :
      t.taken s (t.generateUid s hint).2 = false →
      HandsOut (t.generateUid s hint).1 log t' →
      HandsOut t ((s, (t.generateUid s hint).2) :: log) t'

/-- The name handed out is one of the names of the table after. -/
theorem mem_names_generateUid_self (t : Scopes) (s : Nat) (hint : String) :
    (t.generateUid s hint).2 ∈ (t.generateUid s hint).1.names := by
  obtain ⟨f, hgen, -⟩ := generateUid_fst t s hint
  rw [hgen, names_declare, List.mem_insert_iff]
  exact Or.inl rfl

namespace Issues

variable {t t' t'' : Scopes} {log log' : List (Nat × String)}

theorem single (t : Scopes) (s : Nat) (hint : String) :
    Issues t [(s, (t.generateUid s hint).2)] (t.generateUid s hint).1 :=
  .cons s hint (.nil _)

theorem append (h : Issues t log t') (h' : Issues t' log' t'') : Issues t (log ++ log') t'' := by
  induction h with
  | nil => exact h'
  | cons s hint _ ih => exact .cons s hint (ih h')

/-- **From a sound table every request gets a free name**: `generateUid` answers a name that is
none of the table's names, and a sound table binds only names it knows. -/
theorem handsOut (h : Issues t log t') (ht : t.Sound) : HandsOut t log t' ∧ t'.Sound := by
  induction h with
  | nil t => exact ⟨.nil t, ht⟩
  | @cons t _ _ s hint _ ih =>
    obtain ⟨hout, hsound⟩ := ih (ht.generateUid s hint)
    refine ⟨.cons s hint ?_ hout, hsound⟩
    cases hk : t.taken s (t.generateUid s hint).2
    · rfl
    · exact absurd (ht.mem_of_taken hk) (generateUid_fresh ht s hint)

end Issues

namespace HandsOut

variable {t t' : Scopes} {log : List (Nat × String)}

/-- No name handed out is one of the names the table knew. -/
theorem not_mem_names (h : HandsOut t log t') : ∀ e ∈ log, e.2 ∉ t.names := by
  induction h with
  | nil => intro e he; cases he
  | @cons t _ _ s hint hfree _ ih =>
    intro e he
    rcases List.mem_cons.1 he with rfl | he
    · intro hmem
      simp only [taken, Bool.or_eq_false_iff, List.contains_eq_mem, decide_eq_false_iff_not] at hfree
      exact hfree.1 hmem
    · exact fun hmem => ih e he (mem_names_generateUid s hint hmem)

/-- No name is handed out twice. -/
theorem nodup (h : HandsOut t log t') : (log.map Prod.snd).Nodup := by
  induction h with
  | nil => exact List.nodup_nil
  | @cons t _ _ s hint _ hrest ih =>
    refine List.nodup_cons.2 ⟨fun hmem => ?_, ih⟩
    obtain ⟨e, he, heq⟩ := List.mem_map.1 hmem
    exact hrest.not_mem_names e he (heq ▸ mem_names_generateUid_self t s hint)

end HandsOut

/-! ### The progression of attempts -/

/-- The last attempt made for `stem` in scope `s`; `0` before the first. -/
def counter (t : Scopes) (s : Nat) (stem : String) : Nat :=
  ((t.get s).counters.lookup stem).getD 0

/-- The attempt a request for `hint` in scope `s` settles on. -/
def attempt (t : Scopes) (s : Nat) (hint : String) : Nat :=
  t.firstFree s (Name.sanitize hint) (t.names.length + 1) (t.counter s (Name.sanitize hint))

theorem generateUid_snd (t : Scopes) (s : Nat) (hint : String) :
    (t.generateUid s hint).2 = Name.candidate (Name.sanitize hint) (t.attempt s hint) := rfl

/-- A request changes only its own scope: the counter of its stem moves to the attempt it
settled on, and the name it answers is declared there. -/
theorem get_generateUid (t : Scopes) (s i : Nat) (hint : String) :
    (t.generateUid s hint).1.get i =
      if s = i ∧ s < t.table.size then
        { t.get i with
          bindings := (t.get i).bindings.insert (t.generateUid s hint).2
          counters := (Name.sanitize hint, t.attempt s hint) ::
            (t.get i).counters.filter fun e => e.1 != Name.sanitize hint }
      else t.get i := by
  rw [generateUid, get_declare, get_modify, get_modify, size_modify]
  by_cases hsi : s = i ∧ s < t.table.size
  · rw [if_pos hsi, if_pos hsi, if_pos hsi]
    unfold List.insert
    split <;> rfl
  · rw [if_neg hsi, if_neg hsi, if_neg hsi]

theorem lookup_filter_ne {stem key : String} (hne : key ≠ stem) :
    ∀ l : List (String × Nat), (l.filter fun e => e.1 != stem).lookup key = l.lookup key
  | [] => rfl
  | (k, v) :: l => by
    by_cases hk : k = stem
    · subst hk
      have hkey : (key == k) = false := beq_false_of_ne hne
      simp [List.lookup_cons, hkey, lookup_filter_ne hne l]
    · have hk' : (k != stem) = true := bne_iff_ne.2 hk
      simp only [List.filter_cons, hk', if_true, List.lookup_cons]
      rw [lookup_filter_ne hne l]

/-- After a request, the counter of its stem in its scope is the attempt it settled on; every
other counter of every scope is what it was. -/
theorem counter_generateUid (t : Scopes) (s : Nat) (hint : String) (i : Nat) (stem : String) :
    (t.generateUid s hint).1.counter i stem =
      if s = i ∧ s < t.table.size ∧ stem = Name.sanitize hint then t.attempt s hint
      else t.counter i stem := by
  rw [counter, get_generateUid]
  by_cases hi : s = i ∧ s < t.table.size
  · obtain ⟨rfl, hs⟩ := hi
    rw [if_pos ⟨rfl, hs⟩]
    by_cases hstem : stem = Name.sanitize hint
    · subst hstem
      simp [hs]
    · rw [if_neg (fun h => hstem h.2.2)]
      have hbeq : (stem == Name.sanitize hint) = false := beq_false_of_ne hstem
      simp only [List.lookup_cons, hbeq]
      rw [lookup_filter_ne hstem]
      rfl
  · rw [if_neg hi, if_neg (fun h => hi ⟨h.1, h.2.1⟩)]
    rfl

/-- The search ends after the attempt it starts from. -/
theorem lt_firstFree (t : Scopes) (s : Nat) (stem : String) :
    ∀ fuel a, a < t.firstFree s stem fuel a
  | 0, a => Nat.lt_succ_self a
  | fuel + 1, a => by
    simp only [firstFree]
    split
    · exact Nat.lt_trans (Nat.lt_succ_self a) (lt_firstFree t s stem fuel (a + 1))
    · exact Nat.lt_succ_self a

/-- Every attempt the search passes over is taken. -/
theorem taken_of_lt_firstFree (t : Scopes) (s : Nat) (stem : String) :
    ∀ fuel a m, a < m → m < t.firstFree s stem fuel a → t.taken s (Name.candidate stem m) = true
  | 0, a, m, ham, hm => by
    simp only [firstFree] at hm
    omega
  | fuel + 1, a, m, ham, hm => by
    simp only [firstFree] at hm
    split at hm
    · rename_i htaken
      rcases Nat.lt_or_ge (a + 1) m with hlt | hge
      · exact taken_of_lt_firstFree t s stem fuel (a + 1) m hlt hm
      · rw [show m = a + 1 by omega]
        exact htaken
    · omega

/-- A request settles on an attempt after its counter. -/
theorem counter_lt_attempt (t : Scopes) (s : Nat) (hint : String) :
    t.counter s (Name.sanitize hint) < t.attempt s hint :=
  lt_firstFree t s _ _ _

/-- `n` is the first attempt after `last` whose candidate for `stem` is free as seen from scope
`s`: none of the module's names, and bound on no scope of the chain of `s`. -/
structure LeastFree (t : Scopes) (s : Nat) (stem : String) (last n : Nat) : Prop where
  after : last < n
  free : Name.candidate stem n ∉ t.names ∧ t.has s (Name.candidate stem n) = false
  least : ∀ m, last < m → m < n →
    Name.candidate stem m ∈ t.names ∨ t.has s (Name.candidate stem m) = true

theorem taken_eq_false_iff (t : Scopes) (s : Nat) (y : String) :
    t.taken s y = false ↔ y ∉ t.names ∧ t.has s y = false := by
  simp [taken]

/-- From a sound table a request settles on the first free attempt after its counter: the
bound of `names.length + 1` tries never stops the search early. -/
theorem leastFree_attempt {t : Scopes} (h : t.Sound) (s : Nat) (hint : String) :
    LeastFree t s (Name.sanitize hint) (t.counter s (Name.sanitize hint)) (t.attempt s hint) where
  after := counter_lt_attempt t s hint
  free := (taken_eq_false_iff t s _).1 (firstFree_free h s hint _)
  least m hm hlt := by
    have htaken := taken_of_lt_firstFree t s _ _ _ m hm hlt
    simpa [taken] using htaken

/-- A request never lowers a counter. -/
theorem counter_le_generateUid (t : Scopes) (s : Nat) (hint : String) (i : Nat) (stem : String) :
    t.counter i stem ≤ (t.generateUid s hint).1.counter i stem := by
  rw [counter_generateUid]
  split
  · rename_i h
    obtain ⟨rfl, -, rfl⟩ := h
    exact Nat.le_of_lt (lt_firstFree t s _ _ _)
  · exact Nat.le_refl _

/-- Along a run of requests no counter goes down. -/
theorem Issues.counter_le {t t' : Scopes} {log : List (Nat × String)} (h : Issues t log t')
    (i : Nat) (stem : String) : t.counter i stem ≤ t'.counter i stem := by
  induction h with
  | nil => exact Nat.le_refl _
  | cons s hint _ ih => exact Nat.le_trans (counter_le_generateUid _ s hint i stem) ih

/-- What a request for `hint` in scope `s` of `t` does when it settles on attempt `n`, leaving
`t'` and answering `name`: the name is the candidate of the first free attempt after the
counter, the counter moves to it, the name is declared in `s` and added to the module's names,
and every other scope stays as it was. -/
structure Grants (t : Scopes) (s : Nat) (hint : String) (n : Nat) (t' : Scopes) (name : String) :
    Prop where
  least : LeastFree t s (Name.sanitize hint) (t.counter s (Name.sanitize hint)) n
  name_eq : name = Name.candidate (Name.sanitize hint) n
  counter_eq : t'.counter s (Name.sanitize hint) = n
  declared : t'.owns s name = true
  names_eq : t'.names = name :: t.names
  others : ∀ i, i ≠ s → t'.get i = t.get i

theorem grants_generateUid {t : Scopes} (ht : t.Sound) {s : Nat} (hs : s < t.table.size)
    (hint : String) :
    Grants t s hint (t.attempt s hint) (t.generateUid s hint).1 (t.generateUid s hint).2 where
  least := leastFree_attempt ht s hint
  name_eq := generateUid_snd t s hint
  counter_eq := by rw [counter_generateUid, if_pos ⟨rfl, hs, rfl⟩]
  declared := by
    rw [owns_iff, get_generateUid, if_pos ⟨rfl, hs⟩]
    exact List.mem_insert_self
  names_eq := by
    obtain ⟨f, hgen, -⟩ := generateUid_fst t s hint
    rw [hgen, names_declare, names_modify]
    exact List.insert_of_not_mem (generateUid_fresh ht s hint)
  others i hi := by rw [get_generateUid, if_neg (fun h => hi h.1.symm)]

/-- **A fresh name is the first free attempt.** From a sound table, a request for `hint` in
scope `s` answers the candidate of the hint's stem at the first attempt after the scope's counter
whose candidate is free, moves the counter there, declares the name in `s` and adds it to the
module's names, and changes no other scope. Whatever requests follow, the next request for the
same stem in `s` settles on a later attempt. -/
theorem generateUid_first_free {t : Scopes} (ht : t.Sound) {s : Nat} (hs : s < t.table.size)
    (hint : String) :
    Grants t s hint (t.attempt s hint) (t.generateUid s hint).1 (t.generateUid s hint).2 ∧
      ∀ log t' hint', Issues (t.generateUid s hint).1 log t' →
        Name.sanitize hint' = Name.sanitize hint → t.attempt s hint < t'.attempt s hint' := by
  refine ⟨grants_generateUid ht hs hint, fun log t' hint' hrun hstem => ?_⟩
  have hcounter := (grants_generateUid ht hs hint).counter_eq
  have hle := hrun.counter_le s (Name.sanitize hint)
  have hlt := counter_lt_attempt t' s hint'
  rw [hstem] at hlt
  omega

/-- The table of `let _value = 1; use(_value2);`: one program scope, which binds `_value`. -/
def valueTable : Scopes where
  table := #[⟨.program, none, 0, "Program", ⟨0, 30⟩, ["_value"], []⟩]
  names := ["_value", "use", "_value2"]

theorem valueTable_sound : valueTable.Sound where
  mem_names s y hy := by
    rcases s with _ | s
    · simp [valueTable, get] at hy
      simp [valueTable, hy]
    · simp only [valueTable, get] at hy
      cases hy
  parent_lt s q hq := by
    rcases s with _ | s
    · simp [valueTable, get] at hq
    · simp only [valueTable, get] at hq
      cases hq

/-- The attempts go on from `_value2`, spelled in the module, and the stem `other` starts anew. -/
example :
    let r₁ := valueTable.generateUid 0 "value"
    let r₂ := r₁.1.generateUid 0 "value"
    [r₁.2, r₂.2, (r₂.1.generateUid 0 "other").2] = ["_value3", "_value4", "_other"] := by
  cbv

theorem generateUid_first_free_valueTable :
    valueTable.Sound ∧ 0 < valueTable.table.size ∧
      (Grants valueTable 0 "value" (valueTable.attempt 0 "value")
          (valueTable.generateUid 0 "value").1 (valueTable.generateUid 0 "value").2 ∧
        ∀ log t' hint', Issues (valueTable.generateUid 0 "value").1 log t' →
          Name.sanitize hint' = Name.sanitize "value" →
            valueTable.attempt 0 "value" < t'.attempt 0 hint') :=
  ⟨valueTable_sound, by decide, generateUid_first_free valueTable_sound (by decide) "value"⟩

end SignalSugar.Scopes
