import CodeAtlas.Proofs.Session.Operations
import CodeAtlas.Session.Holdings

/-!
# Which instances a session keeps

Units, declarations and hierarchy analysis ask the registry for an instance before they keep it, or
they keep one that is kept elsewhere already. So each instance that is kept is that of the registry,
and it is kept where the store has its element. The only other instances that may be kept are those
that somebody hands in as the two sides of a tuple.

## Main definitions

* `Place.Stored`: where the store has something.
* `Interned.Proper`: an instance that may be kept.
* `Holdings.Fits`: what is kept fits a store and a registry.
* `Holdings.Fits.record`, `Holdings.Fits.process`, `Holdings.Fits.run`: it goes on to fit.
* `Holdings.BelongTo`, `Holdings.BelongTo.call`: what is kept fits a session, and goes on to.
-/
namespace CodeAtlas

/-- Whether a store has something in a place. -/
def Place.Stored (s : Store) : Place → Prop
  | record e => s.contains e = true
  | member d r e => e ∈ s.range d r

/-- An instance is that of the registry, unless its element has been handed in. -/
def Interned.Proper (handed : List Element) (r : Registry) (i : Interned) : Prop :=
  i.element ∈ handed ∨ r.Holds i

theorem Interned.Proper.extends {handed : List Element} {r r' : Registry} {i : Interned}
    (hext : r'.Extends r) (h : i.Proper handed r) : i.Proper handed r' := h.imp_right hext.holds

namespace Holdings

variable {h : Holdings} {handed es : List Element} {s : Store} {r r' : Registry} {p q : Place}
  {d e i j : Interned}

/-! ## Keeping an instance -/

theorem kept?_keep :
    (h.keep p i).kept? q = if q = p then some ((h.kept? p).getD i) else h.kept? q := by
  unfold keep
  split
  next j hj =>
    split
    · simp [*]
    · rfl
  next hnone => simp [hnone]

/-- The places that are taken are as before, and the given one. -/
theorem exists_kept_keep :
    (∃ j, (h.keep p i).kept? q = some j) ↔ q = p ∨ ∃ j, h.kept? q = some j := by
  rw [kept?_keep]
  by_cases hq : q = p <;> simp [hq]

/-- What is kept there was kept before, or is the given instance. -/
theorem kept?_of_keep (hj : (h.keep p i).kept? q = some j) :
    h.kept? q = some j ∨ q = p ∧ j = i := by
  rw [kept?_keep] at hj
  split at hj
  next hq =>
    subst hq
    cases hold : h.kept? q with
    | some k =>
      rw [hold] at hj
      exact .inl hj
    | none =>
      rw [hold] at hj
      exact .inr ⟨rfl, (Option.some.inj hj).symm⟩
  next => exact .inl hj

@[simp] theorem queue_keep : (h.keep p i).queue = h.queue := by
  unfold keep
  split <;> rfl

/-- What is kept fits a store and a registry: the places that are taken are those where the store has
something, each of them holds an instance of its element, and this instance is proper. So is each
that waits, and the elements of these are the given ones. -/
structure Fits (h : Holdings) (handed es : List Element) (s : Store) (r : Registry) : Prop where
  stored : ∀ p, (∃ i, h.kept? p = some i) ↔ p.Stored s
  element_eq : ∀ {p i}, h.kept? p = some i → i.element = p.element
  proper : ∀ {p i}, h.kept? p = some i → i.Proper handed r
  waiting : ∀ {i}, i ∈ h.queue → i.Proper handed r
  queue_eq : h.queue.map Interned.element = es

/-- A proper instance may be kept in a place of its element, once the store has something there. -/
theorem Fits.keep {t : Store} (hfits : h.Fits handed es s r) (hi : i.Proper handed r)
    (hp : i.element = p.element) (hstored : ∀ q : Place, q.Stored t ↔ q = p ∨ q.Stored s) :
    (h.keep p i).Fits handed es t r where
  stored q := by rw [exists_kept_keep, hstored, hfits.stored]
  element_eq hj := by
    rcases kept?_of_keep hj with hj | ⟨rfl, rfl⟩
    · exact hfits.element_eq hj
    · exact hp
  proper hj := by
    rcases kept?_of_keep hj with hj | ⟨-, rfl⟩
    · exact hfits.proper hj
    · exact hi
  waiting hj := by
    rw [queue_keep] at hj
    exact hfits.waiting hj
  queue_eq := by rw [queue_keep, hfits.queue_eq]

/-- It goes on to fit if the registry gets more instances, more elements are handed in, and the
store has the same places. -/
theorem Fits.mono {more : List Element} {t : Store} (hfits : h.Fits handed es s r)
    (hext : r'.Extends r) (hhanded : handed ⊆ more)
    (hplaces : ∀ p : Place, p.Stored t ↔ p.Stored s) : h.Fits more es t r' where
  stored p := (hfits.stored p).trans (hplaces p).symm
  element_eq := hfits.element_eq
  proper hi := ((hfits.proper hi).extends hext).imp_left (hhanded ·)
  waiting hi := ((hfits.waiting hi).extends hext).imp_left (hhanded ·)
  queue_eq := hfits.queue_eq

theorem Fits.extends (hfits : h.Fits handed es s r) (hext : r'.Extends r) : h.Fits handed es s r' :=
  hfits.mono hext (List.Subset.refl _) fun _ => .rfl

/-! ## Facts -/

theorem stored_declare {x : Element} {m : Modifiers} :
    q.Stored (s.declare x m) ↔ q = .record x ∨ q.Stored s := by
  cases q with
  | record y => simp [Place.Stored, Store.contains_declare]
  | member => simp [Place.Stored]

theorem stored_register {x : Element} : q.Stored (s.register x) ↔ q = .record x ∨ q.Stored s := by
  cases q with
  | record y => simp [Place.Stored, eq_comm (a := x)]
  | member => simp [Place.Stored]

theorem stored_relate {x y : Element} {t : Relation} : q.Stored (s.relate x t y).2 ↔
    q = .member x t y ∨ q.Stored ((s.register y).register x) := by
  rw [stored_register, stored_register]
  cases q with
  | record z => simp [Place.Stored, Store.contains_relate]
  | member => simp [Place.Stored, Store.mem_range_relate]

theorem Fits.register {m : Modifiers} (hfits : h.Fits handed es s r) (hi : i.Proper handed r) :
    (h.register i).Fits handed es (s.declare i.element m) r :=
  hfits.keep hi rfl fun _ => stored_declare

theorem Fits.relate (hfits : h.Fits handed es s r) (hd : d.Proper handed r) (he : e.Proper handed r)
    (t : Relation) : (h.relate d t e).Fits handed es (s.relate d.element t e.element).2 r := by
  have hrange : (h.register e).Fits handed es (s.register e.element) r :=
    hfits.keep he rfl fun _ => stored_register
  have hdomain : ((h.register e).register d).Fits handed es
      ((s.register e.element).register d.element) r :=
    hrange.keep hd rfl fun _ => stored_register
  exact hdomain.keep he rfl fun _ => stored_relate

theorem Fits.relateBoth (hfits : h.Fits handed es s r) (hd : d.Proper handed r)
    (he : e.Proper handed r) (t : Relation) :
    (h.relateBoth d t e).Fits handed es (s.relateBoth d.element t e.element).2 r :=
  (hfits.relate hd he t).relate he hd t.transpose

/-- What every step of a list keeps fitting fits at its end. -/
theorem Fits.foldl {α τ : Type} (store : τ → Store) {f : Holdings → α → Holdings} {g : τ → α → τ}
    {as : List α} {a : τ} (hfits : h.Fits handed es (store a) r)
    (hstep : ∀ h a, ∀ x ∈ as,
      h.Fits handed es (store a) r → (f h x).Fits handed es (store (g a x)) r) :
    (as.foldl f h).Fits handed es (store (as.foldl g a)) r := by
  induction as generalizing h a with
  | nil => exact hfits
  | cons x as ih =>
    obtain ⟨hfirst, hrest⟩ := List.forall_mem_cons.mp fun y hy h a => hstep h a y hy
    exact ih (hfirst h a hfits) fun h a y hy => hrest y hy h a

/-- The instances of a prepared unit are those of the registry that was asked for them. -/
theorem Fits.record {p : PreparedUnit} {u : SourceUnit} (hfits : h.Fits handed es s r)
    (hp : p.Represents u r) : (h.record p).Fits handed es (p.record s) r := by
  have helements : (p.elements.foldl (fun h f => h.register f.element) h).Fits handed es
      (p.elements.foldl PreparedElement.record s) r :=
    hfits.foldl id fun h s f hf hfits => hfits.register (.inr (hp.element f hf))
  refine helements.foldl id fun h s f hf hfits => ?_
  obtain ⟨hd, he⟩ := hp.relation f hf
  unfold recordRelation PreparedRelation.record
  split
  · exact hfits.relateBoth (.inr hd) (.inr he) f.relation
  · exact hfits.relate (.inr hd) (.inr he) f.relation

/-! ## Analysis -/

/-- What is found has a proper instance. -/
theorem Fits.exists_resolve {f : Finding} (hfits : h.Fits handed es s r) (hf : f.Sound s r) :
    ∃ i, h.resolve f = some i ∧ i.element = f.element ∧ i.Proper handed r := by
  cases f with
  | recorded d q e =>
    obtain ⟨i, hi⟩ := (hfits.stored (.member d q e)).mpr hf
    exact ⟨i, hi, hfits.element_eq hi, hfits.proper hi⟩
  | interned i => exact ⟨i, rfl, rfl, .inr hf⟩

/-- What has a proper instance each has a list of them, in the same order. -/
theorem filterMap_proper {α : Type} {find : α → Option Interned} {element : α → Element}
    {xs : List α} (hfind : ∀ x ∈ xs, ∃ i, find x = some i ∧ i.element = element x ∧
      i.Proper handed r) :
    (xs.filterMap find).map Interned.element = xs.map element ∧
      ∀ i ∈ xs.filterMap find, i.Proper handed r := by
  induction xs with
  | nil => simp
  | cons x xs ih =>
    obtain ⟨⟨i, hi, helement, hproper⟩, hrest⟩ := List.forall_mem_cons.mp hfind
    obtain ⟨hmap, hall⟩ := ih hrest
    rw [List.filterMap_cons_some hi, List.map_cons, List.map_cons, helement, hmap]
    exact ⟨rfl, List.forall_mem_cons.mpr ⟨hproper, hall⟩⟩

section Analysis

variable {scope : Scope} {a : Analysis} {σ : Type} {sink : Sink σ} {l : Listener σ}
  {queue : List Interned}

theorem Fits.override (hfits : h.Fits handed es a.store r) (hd : d.Proper handed r)
    (he : e.Proper handed r) : (h.override scope.project d e).Fits handed es
      (a.override scope d.element e.element).store r := by
  unfold Holdings.override Analysis.override
  split
  · exact hfits.relateBoth hd he .overrides
  · exact (hfits.register he).relateBoth hd he .overrides

theorem Fits.withStatus (hfits : h.Fits handed es s r) (status : Status) :
    h.Fits handed es (s.withStatus status) r := by
  refine hfits.mono (.refl r) (List.Subset.refl _) fun p => ?_
  cases p <;> exact .rfl

theorem Fits.withQueue (hfits : h.Fits handed es s r) (hqueue : ∀ i ∈ queue, i.Proper handed r) :
    Fits { h with queue } handed (queue.map Interned.element) s r :=
  ⟨hfits.stored, hfits.element_eq, hfits.proper, hqueue _, rfl⟩

/-- **What an element is found to override is kept with proper instances.** -/
theorem Fits.process (hfits : h.Fits handed es a.store a.registry)
    (hd : d.Proper handed a.registry) :
    (h.process scope d a).Fits handed es (a.process scope d.element).store
      (a.process scope d.element).registry := by
  have hmeets := (a.view scope).meets_overriddenIn d.element a.registry
  have hext : (a.consulted scope d.element).Extends a.registry := hmeets.extends
  obtain ⟨hmap, hproper⟩ := filterMap_proper fun f hf =>
    (hfits.extends hext).exists_resolve (hmeets.meets.2 f hf)
  rw [Analysis.registry_process, Analysis.process_eq, ← hmeets.meets.1, ← hmap, List.foldl_map]
  refine Fits.foldl Analysis.store ?_ fun h b i hi hfits =>
    hfits.override (hd.extends hext) (hproper i hi)
  exact (hfits.withStatus .running).extends hext

/-- **However far a queue is taken, what is kept goes on to fit.** -/
theorem Fits.drain (hfits : h.Fits handed es a.store a.registry)
    (hqueue : ∀ d ∈ queue, d.Proper handed a.registry) :
    let b := (Analysis.drain scope sink (queue.map Interned.element) l a).2
    (h.drain scope sink queue l a).Fits handed b.worklist.queue b.store b.registry := by
  induction queue generalizing l a h with
  | nil =>
    rw [List.map_nil, Analysis.drain, Holdings.drain]
    split
    · exact (hfits.withStatus _).withQueue hqueue
    · exact (hfits.withStatus _).withQueue hqueue
  | cons d rest ih =>
    rw [List.map_cons, Analysis.drain, Holdings.drain]
    split
    · exact (hfits.withStatus _).withQueue hqueue
    · obtain ⟨hd, hrest⟩ := List.forall_mem_cons.mp hqueue
      let b := (a.withQueue (rest.map Interned.element)).process scope d.element
      have hnext : (h.process scope d (a.withQueue (rest.map Interned.element))).Fits handed es
          b.store b.registry := Fits.process hfits hd
      refine ih hnext fun i hi => (hrest i hi).extends ?_
      obtain ⟨qs, hqs⟩ := Analysis.asked_process
      rw [hqs]
      exact Registry.extends_askAll a.registry qs

theorem Fits.run (hfits : h.Fits handed a.worklist.queue a.store a.registry) :
    let b := (Analysis.run scope sink l a).2
    (h.run scope sink l a).Fits handed b.worklist.queue b.store b.registry := by
  rw [Analysis.run, Holdings.run, ← hfits.queue_eq, List.length_map]
  exact Fits.drain (a := (a.withCancelled false).withStatus .running) (hfits.withStatus .running)
    fun d hd => hfits.waiting hd

/-- The instances of records that have not been seen come to wait. -/
theorem Fits.enqueue {w : Worklist} (hfits : h.Fits handed w.queue s r) :
    (h.enqueue w s).Fits handed (w.enqueue s).queue s r := by
  have hkept : ∀ e ∈ w.unseen s, ∃ i, h.kept? (.record e) = some i ∧ i.element = id e ∧
      i.Proper handed r := by
    intro e he
    obtain ⟨i, hi⟩ := (hfits.stored (.record e)).mpr (Worklist.mem_unseen.mp he).1
    exact ⟨i, hi, hfits.element_eq hi, hfits.proper hi⟩
  obtain ⟨hmap, hproper⟩ := filterMap_proper hkept
  have hqueue : (w.enqueue s).queue =
      (h.queue ++ (w.unseen s).filterMap fun e => h.kept? (.record e)).map Interned.element := by
    rw [List.map_append, hfits.queue_eq, hmap, List.map_id]
    rfl
  rw [hqueue]
  refine hfits.withQueue fun i hi => ?_
  exact (List.mem_append.mp hi).elim hfits.waiting (hproper i)

end Analysis

/-! ## Sessions -/

/-- What is kept when a session takes facts in. -/
def intake (s : Session) (h : Holdings) : Intake → Holdings
  | .populate sink l items => h.populate sink items l s
  | .ingest u => h.ingest s u
  | .registerPackage _ => h
  | .declare k _ => h.declare s k

/-- What is kept when a session answers a call. -/
def call (s : Session) (h : Holdings) : Call → Holdings
  | .intake i => h.intake s i
  | .analysis r => h.analyze r.sink r.listener s

/-- What is kept fits a session, and the registry of the session has come about from the given one by
inquiries. -/
structure BelongTo (h : Holdings) (handed : List Element) (origin : Registry) (s : Session) :
    Prop where
  fits : h.Fits handed s.waiting s.store s.registry
  asked : ∃ qs, s.registry = origin.askAll qs

namespace BelongTo

variable {s : Session} {origin : Registry} {σ : Type} {sink : Sink σ}

/-- A new session keeps nothing. -/
theorem create {settings : Settings} {library : Library} :
    ({} : Holdings).BelongTo [] .empty (.create settings library) where
  fits := {
    stored := by
      rintro (e | ⟨d, r, e⟩)
      · simp [Place.Stored, Session.create, Store.contains, Store.empty]
      · simp [Place.Stored, Session.create, Store.range, Store.record, Store.empty]
    element_eq := nofun
    proper := nofun
    waiting := nofun
    queue_eq := rfl }
  asked := ⟨[], rfl⟩

/-- A session may ask for more instances. -/
theorem consult (hs : h.BelongTo handed origin s) (qs : List Inquiry) :
    h.BelongTo handed origin { s with registry := s.registry.askAll qs } where
  fits := hs.fits.extends (Registry.extends_askAll s.registry qs)
  asked := by
    obtain ⟨before, hbefore⟩ := hs.asked
    exact ⟨before ++ qs, by rw [Registry.askAll_append, ← hbefore]⟩

/-- More elements may be handed in. -/
theorem append (hs : h.BelongTo handed origin s) (more : List Element) :
    h.BelongTo (handed ++ more) origin s where
  fits := hs.fits.mono (.refl s.registry) (List.subset_append_left _ _) fun _ => .rfl
  asked := hs.asked

/-! ### Taking facts in -/

theorem ingest (hs : h.BelongTo handed origin s) (u : SourceUnit) :
    (h.ingest s u).BelongTo handed origin (s.ingest u).2 := by
  obtain ⟨result, qs, hend, hconsult⟩ := Session.consult_of_meets (u.meets_prepare s.registry)
  have hasked := hs.consult qs
  rw [Holdings.ingest, Session.ingest, hconsult]
  cases hend with
  | done _ hp => exact ⟨hasked.fits.record hp, hasked.asked⟩
  | flawed => exact hasked

theorem accept (hs : h.BelongTo handed origin s) (position : Nat)
    (item : Except Fault SourceUnit) :
    (h.accept s item).BelongTo handed origin (s.accept position item).2 := by
  cases item with
  | error fault => exact hs
  | ok u =>
    have hingest := hs.ingest u
    rw [Holdings.accept, Session.accept]
    generalize s.ingest u = result at hingest ⊢
    obtain ⟨answer, t⟩ := result
    cases answer <;> exact ⟨hingest.fits, hingest.asked⟩

theorem acceptAll (hs : h.BelongTo handed origin s) (sink : Sink σ) (position : Nat)
    (items : List (Except Fault SourceUnit)) (l : Listener σ) :
    (h.acceptAll sink position items l s).BelongTo handed origin
      (Session.acceptAll sink position items l s).2.2 := by
  induction items generalizing position l s h with
  | nil => exact hs
  | cons item items ih =>
    have haccept := hs.accept position item
    rw [Holdings.acceptAll, Session.acceptAll]
    generalize s.accept position item = result at haccept ⊢
    obtain ⟨answer, t⟩ := result
    cases answer with
    | ok => exact ih haccept _ _
    | error fault =>
      dsimp only
      split
      · exact haccept
      · exact ih (s := t.skip) ⟨haccept.fits, haccept.asked⟩ _ _

theorem populate (hs : h.BelongTo handed origin s) (items : List (Except Fault SourceUnit))
    (l : Listener σ) :
    (h.populate sink items l s).BelongTo handed origin (s.populate sink items l).2.2 := by
  have hall := hs.acceptAll sink 0 items (l.tell sink (.begun .population items.length))
  rw [Holdings.populate, Session.populate]
  generalize Session.acceptAll sink 0 items _ s = result at hall ⊢
  obtain ⟨answer, l', t⟩ := result
  cases answer <;> exact hall

theorem declare (hs : h.BelongTo handed origin s) (k : Key) (m : Modifiers) :
    (h.declare s k).BelongTo handed origin (s.declare k m).2 := by
  obtain ⟨found, qs, hfound, hconsult⟩ := Session.consult_of_meets (Asking.meets_get k s.registry)
  have hasked := hs.consult qs
  rw [Holdings.declare, Session.declare, Session.lookup, hconsult]
  cases found with
  | ok i => exact ⟨hasked.fits.register (.inr (hfound.2 i rfl)), hasked.asked⟩
  | error fault => exact hasked

/-! ### Analysis and questions -/

/-- A run puts the instances of what has become known behind those that wait, and takes them. -/
theorem run (hs : h.BelongTo handed origin s) (r : Run) :
    (h.analyze r.sink r.listener s).BelongTo handed origin (s.run r) where
  fits := by
    rw [Holdings.analyze, Session.run, Session.analyze]
    split
    · have hfits := hs.fits
      rw [Session.waiting] at hfits
      have hstart : (h.enqueue (s.worklist.getD {}) s.store).Fits handed s.pending.queue s.store
          s.registry := by
        rw [Session.pending]
        cases hw : s.worklist <;> (rw [hw] at hfits; exact hfits.enqueue)
      exact Fits.run (a := s.outset) hstart
    · exact hs.fits
  asked := by
    obtain ⟨before, hbefore⟩ := hs.asked
    obtain ⟨qs, hqs⟩ := s.asked_run r
    exact ⟨before ++ qs, by rw [hqs, hbefore, Registry.askAll_append]⟩

theorem call (hs : h.BelongTo handed origin s) (c : Call) :
    (h.call s c).BelongTo handed origin (s.call c) := by
  cases c with
  | analysis r => exact hs.run r
  | intake i =>
    cases i with
    | populate sink l items => exact hs.populate items l
    | ingest u => exact hs.ingest u
    | registerPackage name => exact ⟨hs.fits, hs.asked⟩
    | declare k m => exact hs.declare k m

theorem question (hs : h.BelongTo handed origin s) (q : Question) :
    h.BelongTo handed origin (s.asked q) := by
  obtain ⟨qs, hasked⟩ := s.asked_askAll q
  rw [hasked]
  exact hs.consult qs

end BelongTo

end Holdings
end CodeAtlas
