import SignalSugar.Proofs.Destructuring
import SignalSugar.Proofs.LabelSites
/-!
# Expanding the labels settles every site it collected

`expandLabels` collects the label calls of the program first and then expands them one after
the other. This module shows what such a run leaves: every collected call no longer stands in
the program as a label call (`Session.Settled`), and the run advances the session.

A `$signal` site has its call replaced by a call of the signal helper, which is no label call;
a `$destructure` site has its declarator replaced by one holding only built nodes, so nothing
read from the source stands below it any more (`Session.Cleared`), and in particular not the
call. Neither fact is undone by a later expansion: a run that advances the session only moves
nodes read from the source, never turns a node into a label call, and keeps each node's nearest
ancestor read from the source (`Evolves.settled`, `Evolves.cleared`). The collected sites are
anchored in the program as read (`anchored_of_collected`), so the declarator a site names
stands above its call until the site is expanded.

The runs are followed with two relations on sessions: `Grows`, a run that advances every
session whose helpers' names are plain, and `Reaches P`, one that moreover leaves `P` behind.
-/

namespace SignalSugar

/-! ### Where the label calls stand -/

namespace Session

/-- No node read from the source with the id `c` stands in the program as a label call. -/
def Settled (c : Nat) (st : Session) : Prop :=
  ∀ e ∈ st.root.standings 0 false, e.id = c → e.label = false

/-- No node read from the source stands in the program with the node `d` as its nearest
ancestor read from the source. -/
def Cleared (d : Nat) (st : Session) : Prop := ∀ e ∈ st.root.standings 0 false, e.above ≠ d

/-- Every node read from the source with the id `c` stands in the program right under the node
`d`. -/
def Anchored (c d : Nat) (st : Session) : Prop :=
  ∀ e ∈ st.root.standings 0 false, e.id = c → e.above = d

variable {st st' : Session} {c d : Nat}

/-- A call that stands right under a node no longer in the program's reach is gone. -/
theorem Settled.of_cleared (ha : st.Anchored c d) (hc : st.Cleared d) : st.Settled c :=
  fun e he hid => absurd (ha e he hid) (hc e he)

/-- A call whose declarator the program does not hold is not in it either. -/
theorem Cleared.of_not_hasId (hd : d ≠ 0) (h : st.root.hasId d = false) : st.Cleared d := by
  intro e he habove
  rcases Node.above_of_mem_standings st.root he with h0 | hmem
  · exact hd (habove ▸ h0)
  · rw [habove, ← Node.hasId_iff_mem_ids hd, h] at hmem
    cases hmem

/-- Evolving keeps what the standings say of the program, since it traces every standing back. -/
theorem Evolves.traced (h : st.Evolves st') (ht : st.Tidy) :
    ∀ e' ∈ st'.root.standings 0 false, ∃ e ∈ st.root.standings 0 false,
      e.id = e'.id ∧ e.above = e'.above ∧ (e'.label = true → e.label = true) := by
  obtain ⟨X, h⟩ := h
  intro e' he'
  obtain ⟨e, he, hf⟩ := (h.tidy ht).2 e' he'
  exact ⟨e, he, hf.id_eq.symm, hf.above_eq.symm, hf.label⟩

theorem Evolves.tidy (h : st.Evolves st') (ht : st.Tidy) : st'.Tidy := by
  obtain ⟨X, h⟩ := h
  exact (h.tidy ht).1

theorem Evolves.plain (h : st.Evolves st') (hp : st.Plain) : st'.Plain := by
  obtain ⟨X, h⟩ := h
  exact h.plain hp

theorem Evolves.settled (h : st.Evolves st') (ht : st.Tidy) (hs : st.Settled c) :
    st'.Settled c := by
  intro e' he' hid
  obtain ⟨e, he, hid', -, hl⟩ := h.traced ht e' he'
  cases hl' : e'.label
  · rfl
  · have := hs e he (hid'.trans hid)
    rw [hl hl'] at this
    cases this

theorem Evolves.cleared (h : st.Evolves st') (ht : st.Tidy) (hc : st.Cleared d) :
    st'.Cleared d := by
  intro e' he' habove
  obtain ⟨e, he, -, habove', -⟩ := h.traced ht e' he'
  exact hc e he (habove'.trans habove)

theorem Evolves.anchored (h : st.Evolves st') (ht : st.Tidy) (ha : st.Anchored c d) :
    st'.Anchored c d := by
  intro e' he' hid
  obtain ⟨e, he, hid', habove, -⟩ := h.traced ht e' he'
  exact habove ▸ ha e he (hid'.trans hid)

end Session

/-! ### The node a replacement leaves -/

namespace Rewrite

variable {st st' : Session} {x : Nat} {k : Kind}

/-- After a replacement the program holds, where it held the node with the id, the node with its
new construct; a program that did not hold the node is unchanged. -/
theorem root_replace (h : (replace x k).run st = .ok ((), st')) :
    (∀ m q, st.root.find x Place.top = some (m, q) →
      ∃ r, Occurs 0 st'.root q.scope r ∧ r = m.withKind k) ∧
    (st.root.hasId x = false → st'.root = st.root) := by
  have hstep : ∀ q m s r s', ((fun p n => do
      let m := n.withKind k
      keepCut p n m
      pure m : Place → Node → Rewrite Node) q m).run s = .ok (r, s') →
      s'.root = s.root ∧ r = m.withKind k := by
    intro q m s r s' hr
    obtain ⟨u, s₁, hcut, hret⟩ := run_bind_ok.1 hr
    obtain ⟨rfl, rfl⟩ := run_pure_ok.1 hret
    rw [run_keepCut_eq] at hcut
    cases hcut
    exact ⟨rfl, rfl⟩
  obtain ⟨b, h⟩ := run_discard_ok.1 h
  simp only [inTreeOf, run_bind_ok] at h
  obtain ⟨s₀, s₁, hget, h⟩ := h
  cases hget
  by_cases hx : st.root.hasId x = true
  · rw [if_pos hx] at h
    simp only [run_bind_ok] at h
    obtain ⟨root, st₁, hroot, u, st₂, hmod, hret⟩ := h
    obtain ⟨-, rfl⟩ := run_pure_ok.1 hret
    cases hmod
    obtain ⟨-, hP⟩ := Node.run_updateAt (fun _ => True) (fun _ m r => r = m.withKind k)
      (fun q m s r s' _ hr => ⟨trivial, (hstep q m s r s' hr).2⟩) Place.top st.root trivial hroot
    exact ⟨hP, fun h' => by rw [hx] at h'; cases h'⟩
  · refine ⟨fun m q hfind => absurd (Node.hasId_of_find hfind) hx, fun _ => ?_⟩
    rw [if_neg hx] at h
    split at h
    · obtain ⟨-, rfl⟩ := run_pure_ok.1 h
      rfl
    · split at h
      · obtain ⟨-, rfl⟩ := run_pure_ok.1 h
        rfl
      · simp only [run_bind_ok] at h
        obtain ⟨t', st₁, ht', u, st₂, hmod, hret⟩ := h
        obtain ⟨-, rfl⟩ := run_pure_ok.1 hret
        cases hmod
        exact (Node.run_updateAt (fun s => s.root = st.root) (fun _ _ _ => True)
          (fun q m s r s' hs hr => ⟨(hstep q m s r s' hr).1.trans hs, trivial⟩) _ _ rfl ht').1

/-- In a tidy session after a replacement, the node of the program with the id has the new
construct. -/
theorem kind_of_replace (hx : x ≠ 0) (ht : st'.Tidy) (h : (replace x k).run st = .ok ((), st'))
    {σ τ : Nat} {m : Node} (hm : Occurs σ st'.root τ m) (hid : m.id = x) : m.kind = k := by
  obtain ⟨hfound, hkept⟩ := root_replace h
  cases hr : st.root.hasId x
  · rw [hkept hr] at hm
    have := Node.id_mem_ids_of_occurs hm (hid ▸ hx)
    rw [hid, ← Node.hasId_iff_mem_ids hx, hr] at this
    cases this
  · obtain ⟨m₀, q, hfind⟩ := Node.find_of_hasId (p := Place.top) hr
    obtain ⟨r, hor, rfl⟩ := hfound m₀ q hfind
    have hrid : (m₀.withKind k).id = x := Node.id_of_find hfind (m := m₀)
    obtain rfl := ht.eq_of_occurs List.mem_cons_self hm List.mem_cons_self hor (hid.trans hrid.symm)
      (hid ▸ hx)
    rfl

/-- A replacement by no label call leaves no label call with the id in the program. -/
theorem settled_replace (hk : ∀ n : Node, labelOf (n.withKind k) = none) (hx : x ≠ 0)
    (ht : st'.Tidy) (h : (replace x k).run st = .ok ((), st')) : st'.Settled x := by
  intro e he hid
  obtain ⟨τ, m, hm, hmid, hl⟩ := Node.exists_occurs_of_mem_standings 0 st'.root he
  have hkind := kind_of_replace hx ht h hm (hmid.trans hid)
  subst hkind
  rw [hl, show labelOf m = none from hk m]
  rfl

/-- A replacement by a construct built afresh leaves nothing read from the source under it. -/
theorem cleared_replace (hk : (k.children.map Child.node).flatMap Node.ids = []) (hx : x ≠ 0)
    (ht : st'.Tidy) (h : (replace x k).run st = .ok ((), st')) : st'.Cleared x := by
  intro e he habove
  rcases Node.above_cases_of_mem_standings 0 st'.root he with h0 | ⟨τ, a, ha, haid, hmem⟩
  · exact hx (habove ▸ h0)
  · rw [kind_of_replace hx ht h ha (haid.trans habove), hk] at hmem
    cases hmem

end Rewrite

/-! ### Runs from a session with plain helpers -/

namespace Session

/-- A run that advances every session whose helpers' local names are no labels'. -/
def Grows (st st' : Session) : Prop := st.Plain → st.Evolves st'

/-- A run that advances every session whose helpers' local names are no labels', and from a
tidy one leaves a session with `P`. -/
def Reaches (P : Session → Prop) (st st' : Session) : Prop :=
  st.Plain → st.Evolves st' ∧ (st.Tidy → P st')

variable {P : Session → Prop} {st₁ st₂ st₃ : Session}

instance : Std.Refl Grows := ⟨fun st _ => refl_of Evolves st⟩

instance : IsTrans Session Grows :=
  ⟨fun _ _ _ h h' hp => trans_of Evolves (h hp) (h' ((h hp).plain hp))⟩

theorem Reaches.of_grows (h : st₁.Grows st₂) (h' : st₂.Reaches P st₃) : st₁.Reaches P st₃ := by
  intro hp
  obtain ⟨h₂, hP⟩ := h' ((h hp).plain hp)
  exact ⟨trans_of Evolves (h hp) h₂, fun ht => hP ((h hp).tidy ht)⟩

/-- What evolving keeps, a run that reaches it and then grows keeps. -/
theorem Reaches.grows (hP : ∀ s s', s.Evolves s' → s.Tidy → P s → P s') (h : st₁.Reaches P st₂)
    (h' : st₂.Grows st₃) : st₁.Reaches P st₃ := by
  intro hp
  obtain ⟨h₁, hP₁⟩ := h hp
  have h₂ := h' (h₁.plain hp)
  exact ⟨trans_of Evolves h₁ h₂, fun ht => hP _ _ h₂ (h₁.tidy ht) (hP₁ ht)⟩

end Session

namespace Rewrite

variable {α β : Type} {P : Session → Prop} {st st' : Session}

theorem Along.grows {X : List Nat} {m : Rewrite α} (h : Along (Session.Advances X) m) :
    Along Session.Grows m :=
  fun st a st' hr _ => (h st a st' hr).evolves

/-- An import, from a session with plain helpers, answers a plain local name. -/
theorem reaches_hook_bind {name : String} {f : String → Rewrite β}
    (hf : ∀ l, Label.ofName? l = none → Along (Session.Reaches P) (f l)) :
    Along (Session.Reaches P) (hook name >>= f) := by
  intro st b st'' h hp
  obtain ⟨l, st', h₁, h₂⟩ := run_bind_ok.1 h
  exact Session.Reaches.of_grows (fun _ => (advances_hook [] name st l st' h₁).evolves)
    (hf l (plain_hook h₁ hp) st' b st'' h₂) hp

/-- Replacing the call of a `$signal` site by a call of a plain name, and going on with a run
that grows: the node with the call's id is no label call afterwards. -/
theorem reaches_replaceCall {x : Nat} {c : String} {rest : Rewrite Unit} (hx : x ≠ 0)
    (hc : Label.ofName? c = none) (hrest : Along Session.Grows rest) :
    Along (Session.Reaches (Session.Settled x))
      (callArguments x >>= fun args => replace x (.call (identOf c) args false) >>= fun _ => rest) := by
  intro st u st' h hp
  obtain ⟨args, s₁, ha, h₁⟩ := run_bind_ok.1 h
  obtain ⟨u', s₂, hr, h₂⟩ := run_bind_ok.1 h₁
  have hadv : st.Advances [] s₂ := advances_replaceCall hx hc st () s₂ (run_bind_ok.2 ⟨args, s₁, ha, hr⟩)
  obtain ⟨rfl, -⟩ := run_callArguments ha
  have hg := hrest s₂ u st' h₂ (hadv.plain hp)
  refine ⟨trans_of Session.Evolves hadv.evolves hg, fun ht => ?_⟩
  have ht₂ := (hadv.tidy ht).1
  exact hg.settled ht₂ (settled_replace (fun n => by simpa [labelOf_withKind_call, identOf] using hc)
    hx ht₂ hr)

/-- Looking a site's declarator up only reads the session, and finds nothing only when the
program does not hold it. -/
theorem run_siteDeclarator {site : Site} {o : Option Node}
    (h : (siteDeclarator site).run st = .ok (o, st')) :
    st' = st ∧ (o = none → st.root.hasId site.declarator = false) := by
  refine ⟨(reads_siteDeclarator site st o st' h).symm, fun ho => ?_⟩
  subst ho
  simp only [siteDeclarator, locate, run_bind_ok] at h
  obtain ⟨r, s₁, ⟨s₀, s₂, hget, hpure⟩, hmatch⟩ := h
  cases hget
  obtain ⟨rfl, rfl⟩ := run_pure_ok.1 hpure
  cases hr : st.root.hasId site.declarator
  · rfl
  · obtain ⟨m, q, hfind⟩ := Node.find_of_hasId (p := Place.top) hr
    simp only [Session.find, hfind] at hmatch
    cases hmatch

/-- **Expanding a `$signal` site advances the session**, and leaves the site's call no label call
of the program: where the program holds it, it is replaced by a call of `createSignal`; where
the declarator is gone, the call is gone with it. -/
theorem expandSignal_settles {site : Site} {verify : Bool} (hc : site.call ≠ 0)
    (hd : site.declarator ≠ 0) (hp : st.Plain) (h : (expandSignal site verify).run st = .ok ((), st')) :
    st.Evolves st' ∧ (st.Tidy → st.Anchored site.call site.declarator → st'.Settled site.call) := by
  rw [expandSignal] at h
  obtain ⟨o, s₁, hsd, h⟩ := run_bind_ok.1 h
  obtain ⟨rfl, hnone⟩ := run_siteDeclarator hsd
  cases o with
  | none =>
    obtain ⟨-, rfl⟩ := run_pure_ok.1 h
    exact ⟨refl_of Session.Evolves _, fun _ ha =>
      Session.Settled.of_cleared ha (Session.Cleared.of_not_hasId hd (hnone rfl))⟩
  | some dn =>
    refine ((?_ : Along (Session.Reaches (Session.Settled site.call)) _) _ _ _ h hp).imp id
      fun h ht _ => h ht
    have hg : ∀ s₁ s₂ s₃, Session.Grows s₁ s₂ → Session.Reaches (Session.Settled site.call) s₂ s₃ →
        Session.Reaches (Session.Settled site.call) s₁ s₃ := fun _ _ _ => Session.Reaches.of_grows
    dsimp only
    refine Along.bind_comp hg (Along.of_reads (reads_declaratorTarget dn)) fun target => ?_
    split
    · refine Along.bind_comp hg (Along.pure _) fun name => ?_
      refine Along.bind_comp hg (Along.of_reads (reads_scopeAt _)) fun s => ?_
      refine Along.bind_comp hg Along.get fun cur => ?_
      refine Along.bind_comp_of hg (fun read => Label.ofName? read = none)
        (fun _ _ _ h => plain_uidAt h) (advances_uidAt [] _ _).grows fun read hread => ?_
      refine Along.bind_comp_of hg (fun write => Label.ofName? write = none)
        (fun _ _ _ h => plain_uidAt h) (advances_uidAt [] _ _).grows fun write hwrite => ?_
      refine reaches_hook_bind fun create hcreate => reaches_replaceCall hc hcreate ?_
      refine Along.bind (advances_replace_built (by simp [Kind.children, Child.ofHoles, Child.ofOption])
        (by simp) (by simp)).grows fun _ => ?_
      refine Along.bind (fun _ _ _ h _ => (advances_derefAt hread hwrite h).evolves) fun _ => ?_
      split
      · exact (advances_verifyAt [] _ _).grows
      · exact Along.pure _
    · exact Along.fail_bind _ _

/-- Replacing a node by a construct built afresh leaves nothing read from the source under it. -/
theorem reaches_replace_built {x : Nat} {k : Kind} (hx : x ≠ 0)
    (hk : (k.children.map Child.node).flatMap Node.ids = [])
    (hcall : ∀ c args o, k ≠ .call c args o) (hident : ∀ y, k ≠ .ident y) :
    Along (Session.Reaches (Session.Cleared x)) (replace x k) := by
  intro st u st' h _
  have hadv := advances_replace_built hk hcall hident st u st' h
  exact ⟨hadv.evolves, fun ht => cleared_replace hk hx (hadv.tidy ht).1 h⟩

/-- Flattening a pattern in place of its declarator leaves nothing read from the source under
the declarator. -/
theorem reaches_destructure {fuel d : Nat} {source pattern : Node} (hd : d ≠ 0) :
    Along (Session.Reaches (Session.Cleared d)) (destructure (fuel + 1) d source pattern true) :=
  along_destructure_succ
    (fun _ _ _ h h' => Session.Reaches.of_grows (fun _ => h.evolves) h')
    (fun _ _ _ h h' => Session.Reaches.grows (fun _ _ h ht hc => h.cleared ht hc) h
      (fun _ => h'.evolves))
    (advances_destructure fuel d · · false)
    (fun _ _ _ hinit => reaches_replace_built hd
      (by simp [Kind.children, Child.ofOption, hinit]) (by simp) (by simp))
    (fun h => by cases h)

/-- **Expanding a `$destructure` site advances the session**, and leaves the site's call no label
call of the program: the declarator it stood in is rebuilt from copies, and where the
declarator is gone, the call is gone with it. -/
theorem expandDestructure_settles {site : Site} {verify : Bool} (hd : site.declarator ≠ 0)
    (hp : st.Plain) (h : (expandDestructure site verify).run st = .ok ((), st')) :
    st.Evolves st' ∧ (st.Tidy → st.Anchored site.call site.declarator → st'.Settled site.call) := by
  rw [expandDestructure] at h
  obtain ⟨o, s₁, hsd, h⟩ := run_bind_ok.1 h
  obtain ⟨rfl, hnone⟩ := run_siteDeclarator hsd
  cases o with
  | none =>
    obtain ⟨-, rfl⟩ := run_pure_ok.1 h
    exact ⟨refl_of Session.Evolves _, fun _ ha =>
      Session.Settled.of_cleared ha (Session.Cleared.of_not_hasId hd (hnone rfl))⟩
  | some dn =>
    refine (fun ⟨he, hc⟩ => ⟨he, fun ht ha => Session.Settled.of_cleared (he.anchored ht ha) (hc ht)⟩)
      ((?_ : Along (Session.Reaches (Session.Cleared site.declarator)) _) _ _ _ h hp)
    have hg : ∀ s₁ s₂ s₃, Session.Grows s₁ s₂ →
        Session.Reaches (Session.Cleared site.declarator) s₂ s₃ →
        Session.Reaches (Session.Cleared site.declarator) s₁ s₃ := fun _ _ _ => Session.Reaches.of_grows
    have hpost : ∀ s₁ s₂ s₃, Session.Reaches (Session.Cleared site.declarator) s₁ s₂ →
        Session.Grows s₂ s₃ → Session.Reaches (Session.Cleared site.declarator) s₁ s₃ :=
      fun _ _ _ => Session.Reaches.grows fun _ _ h ht hc => h.cleared ht hc
    dsimp only
    refine Along.bind_comp hg (Along.of_reads (reads_declaratorTarget dn)) fun pattern => ?_
    split
    rotate_right
    · exact Along.fail_bind _ _
    all_goals
      refine Along.bind_comp hg (Along.of_reads (reads_callArguments _)) fun args => ?_
      split
      rotate_right
      · exact Along.bind_comp hg (Along.of_reads (reads_locate _)) fun _ => Along.fail_bind _ _
      refine Along.bind_comp hg (Along.pure _) fun source => ?_
      refine Along.bind_comp hg (Along.of_reads (reads_ownerAt _)) fun owner => ?_
      refine Along.bind_comp hpost (reaches_destructure hd) fun _ => ?_
      split
      · exact Along.bind (Along.forIn (fun x _ _ =>
          Along.bind (advances_verifyAt [] owner x).grows fun _ => Along.pure _) _) fun _ =>
            Along.pure _
      · exact Along.pure _

/-- A loop over sites whose every body yields, advances the session, and leaves its site's
call no label call of the program, given that the call stood right under its declarator. -/
theorem forIn_sites_settle {f : Site → PUnit → Rewrite (ForInStep PUnit)} :
    ∀ (sites : List Site), (∀ s ∈ sites, ∀ b st st' r, st.Plain → (f s b).run st = .ok (r, st') →
      r = .yield PUnit.unit ∧ st.Evolves st' ∧
        (st.Tidy → st.Anchored s.call s.declarator → st'.Settled s.call)) →
    ∀ b st st' r, st.Plain → (forIn sites b f).run st = .ok (r, st') → st.Evolves st' ∧
      (st.Tidy → (∀ s ∈ sites, st.Anchored s.call s.declarator) → ∀ s ∈ sites, st'.Settled s.call)
  | [], _, _, st, st', r, _, h => by
    obtain ⟨-, rfl⟩ := run_pure_ok.1 h
    exact ⟨refl_of Session.Evolves st, fun _ _ s hs => by cases hs⟩
  | s :: rest, hf, b, st, st', r, hp, h => by
    rw [List.forIn_cons] at h
    obtain ⟨r₁, s₁, h₁, h₂⟩ := run_bind_ok.1 h
    obtain ⟨rfl, he₁, hs₁⟩ := hf s List.mem_cons_self b st s₁ r₁ hp h₁
    obtain ⟨he₂, hs₂⟩ := forIn_sites_settle rest (fun s' hs' => hf s' (List.mem_cons_of_mem s hs'))
      PUnit.unit s₁ st' r (he₁.plain hp) h₂
    refine ⟨trans_of Session.Evolves he₁ he₂, fun ht ha s' hs' => ?_⟩
    have ht₁ := he₁.tidy ht
    rcases List.mem_cons.1 hs' with rfl | hs'
    · exact he₂.settled ht₁ (hs₁ ht (ha s' List.mem_cons_self))
    · exact hs₂ ht₁ (fun x hx => he₁.anchored ht (ha x (List.mem_cons_of_mem s hx))) s' hs'

/-- In a tidy session, the sites of a numbered program each have their call standing right under
their declarator. -/
theorem anchored_of_collected {sites : List Site} (ht : st.Tidy)
    (hc : Collected st.scopes 0 0 [st.root] sites) :
    ∀ s ∈ sites, st.Anchored s.call s.declarator := by
  intro s hs e he hid
  obtain ⟨-, e₀, he₀, hid₀, habove⟩ := hc.anchored s hs
  rw [List.flatMap_singleton] at he₀
  have hnodup : ((st.root.standings 0 false).map Standing.id).Nodup := by
    rw [Node.map_id_standings]
    exact List.Nodup.of_append_left ht
  rw [List.inj_on_of_nodup_map hnodup he he₀ (hid.trans hid₀.symm), habove]

/-- **Expanding the labels of a numbered program advances the session and expands every
site**: the run answers the number of sites collected, and none of their calls is a label call
of the program it leaves. -/
theorem expandLabels_settles {verify : Bool} {count : Nat} (hp : st.Plain)
    (hnum : st.root.numbered = true) (h : (expandLabels verify).run st = .ok (count, st')) :
    ∃ sites, collectSites st.scopes Place.top st.root [] = .ok sites ∧ count = sites.length ∧
      st.Evolves st' ∧ (st.Tidy → ∀ s ∈ sites, st'.Settled s.call) := by
  rw [expandLabels] at h
  obtain ⟨s₀, s₁, hget, h₁⟩ := run_bind_ok.1 h
  cases hget
  obtain ⟨sites, s₂, hcheck, h₂⟩ := run_bind_ok.1 h₁
  obtain ⟨hsites, rfl⟩ := run_check_ok.1 hcheck
  obtain ⟨u, s₃, hloop, hret⟩ := run_bind_ok.1 h₂
  obtain ⟨rfl, rfl⟩ := run_pure_ok.1 hret
  have hc := collected_top hnum hsites
  have hne : ∀ s ∈ sites, s.call ≠ 0 ∧ s.declarator ≠ 0 := fun s hs => by
    obtain ⟨n, hn, τ, m, hm, hid, -⟩ := hc.sound s hs
    rw [List.mem_singleton] at hn
    subst hn
    exact ⟨hid ▸ Node.id_ne_zero_of_numbered (Node.numbered_of_occurs hnum hm), (hc.anchored s hs).1⟩
  obtain ⟨he, hs⟩ := forIn_sites_settle sites (fun s hs b s₀ s₀' r hp₀ h₀ => by
    obtain ⟨hcall, hdecl⟩ := hne s hs
    split at h₀
    all_goals
      obtain ⟨u, s₄, hx, hret⟩ := run_bind_ok.1 h₀
      obtain ⟨rfl, rfl⟩ := run_pure_ok.1 hret
    · exact ⟨rfl, expandSignal_settles hcall hdecl hp₀ hx⟩
    · exact ⟨rfl, expandDestructure_settles hdecl hp₀ hx⟩) _ _ _ _ hp hloop
  exact ⟨sites, hsites, rfl, he, fun ht => hs ht (anchored_of_collected ht hc)⟩

end Rewrite

end SignalSugar
