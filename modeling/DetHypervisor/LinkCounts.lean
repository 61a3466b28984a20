import DetHypervisor.Delivery

/-!
# How often a count is linked

The agenda links every epoch count of its window once. A stop made by the guest goes through
`finish_at_counter`, which knows neither what the walk has linked nor what a deferral has run
over.
-/

namespace DetHypervisor

open List

variable {H σ X τ : Type} {P : Platform H σ X} {req : RunRequest H σ τ} {fuel : ℕ}
  {rail : Rail H σ} {chain : H} {caller : τ} {s s' : Seg H σ τ} {out : SegmentOutcome H}
  {timerSlot : Option ℕ} {boundary : Boundary} {ds : List Deed} {hash : Bool} {p : StopPoint}
  {reason : StopReason} {vns : ℕ}

def linkLabels (ds : List Deed) : List ℕ := (ds.filterMap Deed.link?).map Prod.fst

/-- One link for the stop and one for every epoch count of `(start, stop]`, and
no other. -/
structure LinkedOnce (grid : Option ℕ) (start stop : ℕ) (labels : List ℕ) : Prop where
  stop_once : labels.count stop = 1
  epoch_once : ∀ m, OnGrid grid m → start < m → m ≤ stop → labels.count m = 1
  only : ∀ m ∈ labels, m = stop ∨ OnGrid grid m ∧ start < m ∧ m ≤ stop

/-- Every epoch count of `(start, cur]` is linked once, and nothing else. -/
def Tallied (grid : Option ℕ) (start cur : ℕ) (labels : List ℕ) : Prop :=
  ∀ m, labels.count m = if start < m ∧ m ≤ cur ∧ OnGrid grid m then 1 else 0

section Labels

variable {grid : Option ℕ} {start cur n : ℕ} {labels : List ℕ}

lemma tallied_nil (grid : Option ℕ) (start : ℕ) : Tallied grid start start [] := by
  intro m
  rw [if_neg (by omega), count_nil]

variable (h : Tallied grid start cur labels)
include h

lemma Tallied.mem {m : ℕ} (hm : m ∈ labels) : start < m ∧ m ≤ cur ∧ OnGrid grid m := by
  by_contra hnot
  have hcount := h m
  rw [if_neg hnot] at hcount
  exact count_eq_zero.mp hcount hm

lemma Tallied.point (hstart : start ≤ cur) (hcur : cur < n)
    (hgap : ∀ m, cur < m → m < n → ¬OnGrid grid m) :
    Tallied grid start n (labels ++ if OnGrid grid n then [n] else []) := by
  intro m
  have hcount : (if OnGrid grid n then [n] else []).count m =
      if m = n ∧ OnGrid grid n then 1 else 0 := by
    by_cases hon : OnGrid grid n <;> by_cases heq : m = n <;> simp [hon, heq, Ne.symm]
  rw [count_append, h m, hcount]
  by_cases hon : OnGrid grid m
  · have hm : ¬(cur < m ∧ m < n) := fun hm => hgap m hm.1 hm.2 hon
    by_cases heq : m = n
    · subst heq
      simp only [hon, and_true, if_true]
      rw [if_neg (by omega), if_pos (by omega)]
    · simp only [hon, heq, false_and, if_false, and_true, Nat.add_zero]
      exact if_congr (by omega) rfl rfl
  · have heq : ¬(m = n ∧ OnGrid grid n) := fun h => hon (h.1 ▸ h.2)
    simp only [hon, heq, and_false, if_false]

lemma Tallied.linkedOnce_iff (hcur : cur ≤ n) :
    LinkedOnce grid start n (labels ++ [n]) ↔ (∀ m, OnGrid grid m → start < m → m < n → m ≤ cur) ∧
        ¬(start < n ∧ n ≤ cur ∧ OnGrid grid n) := by
  have hcount (m : ℕ) : (labels ++ [n]).count m = labels.count m + if n = m then 1 else 0 := by
    rw [count_append, count_singleton]
    simp only [beq_iff_eq]
  constructor
  · intro hlinked
    constructor
    · intro m hon hstart hlt
      have honce := hlinked.epoch_once m hon hstart hlt.le
      rw [hcount, if_neg hlt.ne', h m] at honce
      by_contra hnot
      rw [if_neg (by omega)] at honce
      omega
    · intro htwice
      have honce := hlinked.stop_once
      rw [hcount, if_pos rfl, h n, if_pos htwice] at honce
      omega
  · rintro ⟨hbelow, hfresh⟩
    have hstop : (labels ++ [n]).count n = 1 := by rw [hcount, if_pos rfl, h n, if_neg hfresh]
    refine ⟨hstop, fun m hon hstart hle => ?_, fun m hm => ?_⟩
    · rcases hle.eq_or_lt with rfl | hlt
      · exact hstop
      · rw [hcount, if_neg hlt.ne', h m, if_pos ⟨hstart, hbelow m hon hstart hlt, hon⟩]
    · rcases mem_append.mp hm with hm | hm
      · obtain ⟨hstart, hle, hon⟩ := h.mem hm
        exact .inr ⟨hon, hstart, hle.trans hcur⟩
      · exact .inl (mem_singleton.mp hm)

end Labels

/-! ## The walk up to its last point -/

/-- The walk faces the point `p`: it has linked what lies behind it, and no
epoch count lies between. -/
structure Facing (grid : Option ℕ) (start cur : ℕ) (p : StopPoint) (labels : List ℕ) : Prop where
  tallied : Tallied grid start cur labels
  start_le : start ≤ cur
  cur_le : cur ≤ p.icount
  cur_lt : start < p.icount → cur < p.icount
  gap : ∀ m, OnGrid grid m → start < m → m < p.icount → m ≤ cur
  epochHash_iff : p.finalStop = none → cur < p.icount ∧ (p.epochHash = true ↔ OnGrid grid p.icount)

namespace Facing

variable {grid : Option ℕ} {start cur c : ℕ} {labels : List ℕ}

lemma linkedOnce_past_iff (h : Facing grid start cur p labels) (hc : p.icount ≤ c) :
    LinkedOnce grid start c (labels ++ [c]) ↔
      ∀ m, OnGrid grid m → start < m → p.icount ≤ m → c ≤ m := by
  have hcur := h.cur_le
  have hlt := h.cur_lt
  rw [h.tallied.linkedOnce_iff (hcur.trans hc)]
  constructor
  · rintro ⟨hbelow, -⟩ m hon hstart hle
    by_contra hnot
    have := hbelow m hon hstart (by omega)
    omega
  · intro hpast
    refine ⟨fun m hon hstart hm => ?_, by omega⟩
    refine h.gap m hon hstart ?_
    by_contra hnot
    have := hpast m hon hstart (by omega)
    omega

lemma linkedOnce_short_iff (h : Facing grid start cur p labels) (hcur : cur ≤ c)
    (hc : c < p.icount) :
    LinkedOnce grid start c (labels ++ [c]) ↔ ¬(start < c ∧ OnGrid grid c) := by
  rw [h.tallied.linkedOnce_iff hcur]
  constructor
  · rintro ⟨-, hfresh⟩ ⟨hstart, hon⟩
    exact hfresh ⟨hstart, h.gap c hon hstart hc, hon⟩
  · intro hfresh
    refine ⟨fun m hon hstart hm => h.gap m hon hstart (hm.trans hc), fun htwice => ?_⟩
    exact hfresh ⟨htwice.1, htwice.2.2⟩

end Facing

lemma Walks.facing {injections : List ScheduledInjection} {it it' : AgendaIter} {k : ℕ}
    {w : AgendaIter × Seg H σ τ}
    (h : Walks P fuel req rail chain caller injections timerSlot it k w)
    (hnext : w.1.next = some (p, it')) : ∃ cur ds inputs vectors links,
      Progress P req injections timerSlot it (startSeg req rail chain caller) w cur ds inputs
        vectors links ∧
      Facing (epochGrid P req.options) req.startIcount cur p (links.map Prod.fst) := by
  have hstart : req.startIcount < it.finalIcount →
      it.Gridded (epochGrid P req.options) req.startIcount := fun hlt =>
    AgendaIter.gridded_of_new h.new_eq hlt fun _ => epochGrid_pos
  obtain ⟨cur, ds, inputs, vectors, links, hprogress, hle, htallied, hgridded⟩ :=
    h.induct (I := fun _ w cur _ _ _ links => req.startIcount ≤ cur ∧
      Tallied (epochGrid P req.options) req.startIcount cur (links.map Prod.fst) ∧
      (req.startIcount < it.finalIcount →
        cur < it.finalIcount ∧ w.1.Gridded (epochGrid P req.options) cur))
      ⟨le_rfl, tallied_nil _ _, fun hlt => ⟨hlt, hstart hlt⟩⟩ <| by
      rintro k w cur ds inputs vectors links p it' s' vns ds' done _ hprogress
        ⟨hle, htallied, hgridded⟩ hnext hfinal _ _ _ _
      have hyields := hprogress.window.yields_of_next hnext
      have hlt := (hprogress.window.rest_of_next hnext hfinal).1
      have hcur := hyields.cur_le
      rw [hprogress.final_eq] at hlt
      obtain ⟨hcurlt, hgrid⟩ := hgridded (by omega)
      obtain ⟨hiff, hgap, hrest⟩ :=
        hgrid.of_next hprogress.window (hprogress.final_eq ▸ hcurlt) hnext
      have hhashed : hashedAt req p = decide (OnGrid (epochGrid P req.options) p.icount) := by
        rw [Bool.eq_iff_iff, decide_eq_true_iff, ← hiff, hashedAt, hfinal]
        simp
      refine ⟨by omega, ?_, fun _ => ⟨hlt, hrest⟩⟩
      have hpoint := htallied.point hle
        (hyields.cur_lt (by rw [hprogress.final_eq]; exact hcurlt)) hgap
      rw [hhashed, map_append]
      simpa only [decide_eq_true_iff, apply_ite (List.map Prod.fst), map_cons, map_nil] using hpoint
  refine ⟨cur, ds, inputs, vectors, links, hprogress, ?_⟩
  have hyields := hprogress.window.yields_of_next hnext
  have hfinal := hyields.le_final
  rw [hprogress.final_eq] at hfinal
  have hcurlt := hyields.cur_lt
  rw [hprogress.final_eq] at hcurlt
  by_cases hlt : req.startIcount < it.finalIcount
  · obtain ⟨hcur, hgrid⟩ := hgridded hlt
    obtain ⟨hiff, hgap, -⟩ := hgrid.of_next hprogress.window (hprogress.final_eq ▸ hcur) hnext
    refine ⟨htallied, hle, hyields.cur_le, fun _ => hcurlt hcur, fun m hon _ hm => ?_,
      fun _ => ⟨hcurlt hcur, hiff⟩⟩
    by_contra hnot
    exact hgap m (by omega) hm hon
  · refine ⟨htallied, hle, hyields.cur_le, fun hlt' => by omega, fun m _ hstart' hm => by omega,
      fun hnone => ?_⟩
    have := (hprogress.window.rest_of_next hnext hnone).1
    have := hyields.cur_le
    have := hprogress.final_eq
    omega

/-! ## Stops made by the guest -/

/-- The guest stops the call on the way to an agenda point, in the state
`s'`. -/
def FlightStop (P : Platform H σ X) (fuel : ℕ) (req : RunRequest H σ τ) (rail : Rail H σ)
    (chain : H) (caller : τ) (s' : Seg H σ τ) : Prop :=
  ∃ injections timerSlot it k w p it' u,
    Walks P fuel req rail chain caller injections timerSlot it k w ∧
      w.1.next = some (p, it') ∧ landAt P req fuel p.icount w.2 = .error u ∧
      u.seg? = some s'

/-- The guest stops the call at the point `p` while a vector is deferred, in the
state `s'`. -/
def DeferralStop (P : Platform H σ X) (fuel : ℕ) (req : RunRequest H σ τ) (rail : Rail H σ)
    (chain : H) (caller : τ) (p : StopPoint) (s' : Seg H σ τ) : Prop :=
  ∃ injections timerSlot it k w it' s queued u,
    Walks P fuel req rail chain caller injections timerSlot it k w ∧
      w.1.next = some (p, it') ∧ Poised P req fuel p w.2 s queued ∧
      deliver P req fuel timerSlot true (dueVectors injections queued p) s = .error u ∧
      u.seg? = some s'

/-- The guest stops on no epoch count past the start, and no deferral it stops
has run over one. -/
structure StopsClean (P : Platform H σ X) (fuel : ℕ) (req : RunRequest H σ τ) (rail : Rail H σ)
    (chain : H) (caller : τ) : Prop where
  flight : ∀ s', FlightStop P fuel req rail chain caller s' →
    ¬(req.startIcount < s'.rail.icount ∧ OnGrid (epochGrid P req.options) s'.rail.icount)
  deferral : ∀ p s', DeferralStop P fuel req rail chain caller p s' →
    ∀ m, OnGrid (epochGrid P req.options) m → req.startIcount < m → p.icount ≤ m →
      s'.rail.icount ≤ m

section LastTurn

variable {injections : List ScheduledInjection} {it it' : AgendaIter} {k : ℕ}
  {w : AgendaIter × Seg H σ τ} {u : Unwind H σ τ}
  {r : Flight H σ τ (SegmentOutcome H × Seg H σ τ)}

lemma walkStep_of_atPoint_error (hnext : w.1.next = some (p, it'))
    (h : atPoint P req fuel injections timerSlot p w.2 = .error u) :
    walkStep P req fuel injections timerSlot w = .done (.error u) := by
  simp only [walkStep, hnext, h]

lemma Poised.unique {s1 s2 : Seg H σ τ} {queued queued' : List ℕ}
    (h : Poised P req fuel p s s1 queued) (h' : Poised P req fuel p s s2 queued') :
    s1 = s2 ∧ queued = queued' := by
  obtain ⟨s0, hland, happly⟩ := h
  obtain ⟨s0', hland', happly'⟩ := h'
  cases hland.symm.trans hland'
  exact Prod.mk.inj (Except.ok.inj (happly.symm.trans happly'))

variable (h : Walks P fuel req rail chain caller injections timerSlot it k w)
include h

lemma Walks.last_eq {injections' : List ScheduledInjection} {timerSlot' : Option ℕ}
    {it1 : AgendaIter} {k' : ℕ} {w' : AgendaIter × Seg H σ τ}
    {r' : Flight H σ τ (SegmentOutcome H × Seg H σ τ)}
    (hdone : walkStep P req fuel injections timerSlot w = .done r)
    (h' : Walks P fuel req rail chain caller injections' timerSlot' it1 k' w')
    (hdone' : walkStep P req fuel injections' timerSlot' w' = .done r') :
    injections' = injections ∧ timerSlot' = timerSlot ∧ w' = w := by
  have hopening := h.opening_eq.symm.trans h'.opening_eq
  cases hopening
  exact ⟨rfl, rfl, h'.path.end_eq hdone' h.path hdone⟩

variable (hnext : w.1.next = some (p, it'))
include hnext

lemma FlightStop.last (hdone : walkStep P req fuel injections timerSlot w = .done r)
    (hstop : FlightStop P fuel req rail chain caller s') :
    ∃ u, landAt P req fuel p.icount w.2 = .error u ∧ u.seg? = some s' := by
  obtain ⟨injections', timerSlot', it1, k', w', p', it2, u, h', hnext', hland, hu⟩ := hstop
  obtain ⟨rfl, rfl, rfl⟩ := h.last_eq hdone h'
    (walkStep_of_atPoint_error hnext' (atPoint_of_landAt_error _ _ hland))
  cases hnext'.symm.trans hnext
  exact ⟨u, hland, hu⟩

lemma DeferralStop.last {p' : StopPoint}
    (hdone : walkStep P req fuel injections timerSlot w = .done r)
    (hstop : DeferralStop P fuel req rail chain caller p' s') :
    p' = p ∧ ∃ s queued u, Poised P req fuel p w.2 s queued ∧
      deliver P req fuel timerSlot true (dueVectors injections queued p) s = .error u ∧
      u.seg? = some s' := by
  obtain ⟨injections', timerSlot', it1, k', w', it2, s, queued, u, h', hnext', hpoised, hdeliver,
    hu⟩ := hstop
  obtain ⟨rfl, rfl, rfl⟩ := h.last_eq hdone h'
    (walkStep_of_atPoint_error hnext' (atPoint_of_deliver_error hpoised hdeliver))
  cases hnext'.symm.trans hnext
  exact ⟨rfl, s, queued, u, hpoised, hdeliver, hu⟩

lemma stopsClean_flight_iff (hland : landAt P req fuel p.icount w.2 = .error u)
    (hu : u.seg? = some s') : StopsClean P fuel req rail chain caller ↔
      ¬(req.startIcount < s'.rail.icount ∧ OnGrid (epochGrid P req.options) s'.rail.icount) := by
  have hdone := walkStep_of_atPoint_error hnext
    (atPoint_of_landAt_error injections timerSlot hland)
  refine ⟨fun hclean => hclean.flight s' ⟨_, _, _, _, _, _, _, u, h, hnext, hland, hu⟩,
    fun hoff => ⟨fun s1 hstop => ?_, fun p' s1 hstop => ?_⟩⟩
  · obtain ⟨u', hland', hu'⟩ := hstop.last h hnext hdone
    cases hland.symm.trans hland'
    cases hu.symm.trans hu'
    exact hoff
  · obtain ⟨-, s2, queued, u', ⟨s0, hland', -⟩, -⟩ := hstop.last h hnext hdone
    cases hland.symm.trans hland'

lemma stopsClean_deferral_iff {queued : List ℕ} (hpoised : Poised P req fuel p w.2 s queued)
    (hdeliver : deliver P req fuel timerSlot true (dueVectors injections queued p) s = .error u)
    (hu : u.seg? = some s') : StopsClean P fuel req rail chain caller ↔
      ∀ m, OnGrid (epochGrid P req.options) m → req.startIcount < m → p.icount ≤ m →
        s'.rail.icount ≤ m := by
  have hdone := walkStep_of_atPoint_error hnext (atPoint_of_deliver_error hpoised hdeliver)
  refine ⟨fun hclean => hclean.deferral p s'
    ⟨_, _, _, _, _, _, _, _, u, h, hnext, hpoised, hdeliver, hu⟩,
    fun hpast => ⟨fun s1 hstop => ?_, fun p' s1 hstop => ?_⟩⟩
  · obtain ⟨u', hland', -⟩ := hstop.last h hnext hdone
    obtain ⟨s0, hland, -⟩ := hpoised
    cases hland.symm.trans hland'
  · obtain ⟨rfl, s2, queued', u', hpoised', hdeliver', hu'⟩ := hstop.last h hnext hdone
    obtain ⟨rfl, rfl⟩ := hpoised.unique hpoised'
    cases hdeliver.symm.trans hdeliver'
    cases hu.symm.trans hu'
    exact hpast

lemma stopsClean_of_delivered {queued : List ℕ} {s1 : Seg H σ τ}
    (hdone : walkStep P req fuel injections timerSlot w = .done r)
    (hpoised : Poised P req fuel p w.2 s queued)
    (hdeliver : deliver P req fuel timerSlot true (dueVectors injections queued p) s = .ok s1) :
    StopsClean P fuel req rail chain caller := by
  refine ⟨fun s2 hstop => ?_, fun p' s2 hstop => ?_⟩
  · obtain ⟨u', hland', -⟩ := hstop.last h hnext hdone
    obtain ⟨s0, hland, -⟩ := hpoised
    cases hland.symm.trans hland'
  · obtain ⟨rfl, s2, queued', u', hpoised', hdeliver', hu'⟩ := hstop.last h hnext hdone
    obtain ⟨rfl, rfl⟩ := hpoised.unique hpoised'
    cases hdeliver.symm.trans hdeliver'

end LastTurn

lemma settle_error_eq_ok {u : Unwind H σ τ} (h : settle P req (.error u) = .ok (out, s')) :
    ∃ s1 reason, u.seg? = some s1 ∧
      finishAtCounter P req.options.hashFinalStop reason s1 = .ok (out, s') := by
  cases u with
  | error e => cases h
  | halted s1 | frameSinkStop s1 | eventStop s1 => exact ⟨s1, _, rfl, h⟩

lemma finishAtCounter_conduct (req : RunRequest H σ τ) (timerSlot : Option ℕ)
    (h : finishAtCounter P true reason s = .ok (out, s')) :
    ∃ ds vns, Conduct P req timerSlot s s' ds [] [] [(s.rail.icount, vns, s.rail.icount)] ∧
      out.boundary.icount = s.rail.icount := by
  unfold finishAtCounter at h
  cases hvns : P.config.clock.vnsFromIcount s.rail.icount with
  | none => simp [hvns] at h
  | some vns =>
    simp only [hvns] at h
    obtain ⟨ds, hds, hboundary, -⟩ := finish_conduct req timerSlot (Except.ok.inj h)
    exact ⟨ds, vns, hds, by rw [hboundary]; rfl⟩

lemma Conduct.linkLabels_eq {inputs : List (ℕ × ℕ × ℕ)} {vectors : List (ℕ × Option ℕ × ℕ)}
    {links : List (ℕ × ℕ × ℕ)} (h : Conduct P req timerSlot s s' ds inputs vectors links) :
    linkLabels ds = links.map Prod.fst := by
  rw [linkLabels, h.links_eq]

/-- The last link of a stop labels the reported boundary: the point or the first epoch count
after it. -/
lemma After.linked (h : After P req timerSlot p boundary vns s (.inr (out, s')))
    (hboundary : boundary.icount = p.icount) (hhash : req.options.hashFinalStop = true) :
    ∃ ds links, Conduct P req timerSlot s s' ds [] [] links ∧
      (if hashedAt req p then [p.icount] else []) ++ links.map Prod.fst = [out.boundary.icount] ∧
      (out.boundary.icount = p.icount ∨ p.finalStop = none ∧ p.epochHash = false ∧
        out.boundary.icount = pauseTarget P p.icount) := by
  generalize hres : (Sum.inr (out, s') : Seg H σ τ ⊕ SegmentOutcome H × Seg H σ τ) = res at h
  cases h with
  | onward => cases hres
  | @finish reason hreason hstop =>
    obtain ⟨ds, hds, hbound, -⟩ := finish_conduct req timerSlot (Sum.inr.inj hres).symm
    refine ⟨ds, _, hds, ?_, .inl (by rw [hbound, hboundary])⟩
    rw [hbound, hboundary, hhash]
    cases hashedAt req p <;> rfl
  | paused hfinal hpause hepoch =>
    cases hres
    refine ⟨_, _, .refl s, ?_, .inl hboundary⟩
    have hhashed : hashedAt req p = true := by simp [hashedAt, hfinal, hepoch]
    rw [hhashed]
    exact congrArg (fun n => [n]) hboundary.symm
  | @rolled s1 s2 vns' hfinal hpause hepoch hflown hicount hclock hsink =>
    cases hres
    obtain ⟨ds, hds⟩ := hflown.conduct
    have hhashed : hashedAt req p = false := by simp [hashedAt, hepoch]
    have hlink := hds.trans (.of_does (.link s1.rail.icount vns'))
    rw [hhashed]
    rcases hsink with rfl | hsink
    · exact ⟨_, _, hlink, rfl, .inr ⟨hfinal, hepoch, hicount⟩⟩
    · exact ⟨_, _, hlink.trans (.of_does (.sink hsink)), rfl, .inr ⟨hfinal, hepoch, hicount⟩⟩

/-! ## The labels in the chain -/

def ReadsLabels (P : Platform H σ X) (read : H → List ℕ) : Prop :=
  ∀ chain image icount vns, read (P.link chain image icount vns) = read chain ++ [icount]

lemma noteDelivery_chain {injection : Option ℕ} {vector : ℕ}
    (h : noteDelivery req timerSlot injection vector s = .ok s') : s'.chain = s.chain := by
  unfold noteDelivery at h
  split_ifs at h
  · split at h
    · cases h
      rfl
    · cases h
  · cases h
    rfl

lemma Does.chain_eq {d : Deed} (h : Does P req timerSlot d s s') (hd : d.link? = none) :
    s'.chain = s.chain := by
  cases h with
  | entry h =>
    obtain ⟨r, -, -, hkept⟩ :=
      segOf_onEntered (show segOf? (onEntered P req s (enter P s.rail)) = some s' by rw [h]; rfl)
    exact hkept.chain_eq
  | leave h hu =>
    obtain ⟨r, -, -, hkept⟩ :=
      segOf_onEntered (show segOf? (onEntered P req s (enter P s.rail)) = some s'
        by rw [h]; exact hu)
    exact hkept.chain_eq
  | input hindex h => rfl
  | vector hopen h hnote => rw [noteDelivery_chain hnote, queueVector_eq_ok h]
  | link icount vns => cases hd
  | sink h =>
    obtain ⟨w, -, h⟩ := Except.bind_eq_ok.mp h
    cases h
    rfl

lemma read_of_traced {read : H → List ℕ} (hread : ReadsLabels P read)
    (h : Traced (Does P req timerSlot) ds s s') :
    read s'.chain = read s.chain ++ linkLabels ds := by
  induction h with
  | nil s => exact (append_nil _).symm
  | @cons d ds s s1 s' hdoes _ ih =>
    rw [ih]
    cases hlink : d.link? with
    | none => simp only [linkLabels, filterMap_cons, hlink, hdoes.chain_eq hlink]
    | some l =>
      cases hdoes with
      | link icount vns =>
        cases hlink
        change read (P.link s.chain (P.image s.rail.machine) icount vns) ++ _ = _
        rw [hread, append_assoc]
        rfl
      | entry | leave | input | vector | sink => cases hlink

lemma finish_stateHash {hashed : Bool}
    (h : finish P hash reason boundary vns hashed s = (out, s')) : out.stateHash = s'.chain := by
  cases h
  rfl

lemma finishAtCounter_stateHash (h : finishAtCounter P hash reason s = .ok (out, s')) :
    out.stateHash = s'.chain := by
  unfold finishAtCounter at h
  split at h
  · exact finish_stateHash (Except.ok.inj h)
  · cases h

lemma runSegment_stateHash (h : runSegment P fuel req rail chain caller = .ok (out, s')) :
    out.stateHash = s'.chain := by
  obtain ⟨-, hfinish | ⟨_, _, _, _, _, _, _, -, -, hending⟩⟩ := runSegment_ends h
  · exact finishAtCounter_stateHash hfinish
  · cases hending with
    | cut _ hfinish _ => exact finishAtCounter_stateHash hfinish
    | stop _ _ hafter =>
      generalize hres : (Sum.inr (out, s') : Seg H σ τ ⊕ SegmentOutcome H × Seg H σ τ) = res
        at hafter
      cases hafter with
      | onward => cases hres
      | finish => exact finish_stateHash (Sum.inr.inj hres).symm
      | paused | rolled => cases hres; rfl

section Stops

variable {injections : List ScheduledInjection} {it it' : AgendaIter} {k cur : ℕ}
  {w : AgendaIter × Seg H σ τ} {inputs : List (ℕ × ℕ × ℕ)} {vectors : List (ℕ × Option ℕ × ℕ)}
  {links : List (ℕ × ℕ × ℕ)}

lemma labels_of_finishAtCounter {s1 : Seg H σ τ} {ds1 : List Deed} {inputs1 : List (ℕ × ℕ × ℕ)}
    {vectors1 : List (ℕ × Option ℕ × ℕ)}
    (hsofar : Conduct P req timerSlot s w.2 ds inputs vectors links)
    (hflown : Conduct P req timerSlot w.2 s1 ds1 inputs1 vectors1 [])
    (hfinish : finishAtCounter P true reason s1 = .ok (out, s')) :
    ∃ ds', Traced (Does P req timerSlot) ds' s s' ∧
      linkLabels ds' = links.map Prod.fst ++ [out.boundary.icount] ∧
      out.boundary.icount = s1.rail.icount := by
  obtain ⟨ds2, vns, hds2, hboundary⟩ := finishAtCounter_conduct req timerSlot hfinish
  have hall := (hsofar.trans hflown).trans hds2
  refine ⟨_, hall.traced, ?_, hboundary⟩
  rw [hall.linkLabels_eq, hboundary, append_nil, map_append]
  rfl

lemma linkedOnce_of_delivered {s1 s2 : Seg H σ τ} {queued : List ℕ}
    {r : Flight H σ τ (SegmentOutcome H × Seg H σ τ)} (hhash : req.options.hashFinalStop = true)
    (hsofar : Conduct P req timerSlot s w.2 ds inputs vectors links)
    (hfacing : Facing (epochGrid P req.options) req.startIcount cur p (links.map Prod.fst))
    (hnext : w.1.next = some (p, it')) (hpoised : Poised P req fuel p w.2 s1 queued)
    (hdeliver : deliver P req fuel timerSlot true (dueVectors injections queued p) s1 = .ok s2)
    (hdone : walkStep P req fuel injections timerSlot w = .done r)
    (hsettle : settle P req r = .ok (out, s')) : ∃ ds', Traced (Does P req timerSlot) ds' s s' ∧
      LinkedOnce (epochGrid P req.options) req.startIcount out.boundary.icount
        (linkLabels ds') := by
  -- an epoch count from the point on is not below the first one after it
  have hroll {c : ℕ} (hfinal : p.finalStop = none) (hle : c ≤ pauseTarget P p.icount) (m : ℕ)
      (hon : OnGrid (epochGrid P req.options) m) (hm : p.icount ≤ m) : c ≤ m := by
    obtain ⟨len, hgrid, hdvd⟩ := hon
    rw [epochGrid_eq_some hgrid] at hdvd
    have hpos := (hfacing.epochHash_iff hfinal).1
    exact hle.trans (pauseTarget_le (by omega) hdvd hm)
  have hspec := atPoint_delivered hpoised hdeliver
  simp only [walkStep, hnext] at hdone
  cases hpoint : atPoint P req fuel injections timerSlot p w.2 with
  | ok res =>
    cases res with
    | inl s3 => simp [hpoint] at hdone
    | inr done =>
      simp only [hpoint] at hdone
      cases hdone
      cases hsettle
      obtain ⟨s3, vns, boundary, hhandled, hboundary, hafter⟩ := hspec.of_ok hpoint
      obtain ⟨ds1, done, hdeeds⟩ := hhandled.deeds
      obtain ⟨ds2, links2, hds2, hlinks, hstop⟩ := hafter.linked hboundary hhash
      have hall := (hsofar.trans hdeeds.conduct).trans hds2
      refine ⟨_, hall.traced, ?_⟩
      have hlabels : linkLabels (ds ++ ds1 ++ ds2) =
          links.map Prod.fst ++ [out.boundary.icount] := by
        rw [hall.linkLabels_eq, map_append, map_append, append_assoc, ← hlinks]
        cases hashedAt req p <;> rfl
      rw [hlabels]
      rcases hstop with hstop | ⟨hfinal, hepoch, hstop⟩
      · rw [hstop]
        exact (hfacing.linkedOnce_past_iff le_rfl).mpr fun m _ _ hm => hm
      · rw [hstop]
        exact (hfacing.linkedOnce_past_iff (le_pauseTarget P _)).mpr
          fun m hon _ hm => hroll hfinal le_rfl m hon hm
  | error u =>
    simp only [hpoint] at hdone
    cases hdone
    obtain ⟨s3, reason, hu, hfinish⟩ := settle_error_eq_ok hsettle
    obtain ⟨⟨s4, vns, hhandled, hfinal, -, hepoch, hflown, hlt⟩, -⟩ :=
      hspec.of_error hpoint s3 hu
    obtain ⟨ds1, done, hdeeds⟩ := hhandled.deeds
    obtain ⟨ds2, hds2⟩ := hflown.conduct
    have hhashed : hashedAt req p = false := by simp [hashedAt, hepoch]
    have hmid := hdeeds.conduct.trans hds2
    simp only [hhashed, Bool.false_eq_true, if_false, append_nil] at hmid
    rw [hhash] at hfinish
    obtain ⟨ds', htraced, hlabels, hboundary⟩ := labels_of_finishAtCounter hsofar hmid hfinish
    refine ⟨ds', htraced, ?_⟩
    rw [hlabels, hboundary]
    refine (hfacing.linkedOnce_past_iff (hdeeds.icount_le.trans hflown.icount_le)).mpr ?_
    exact fun m hon _ hm => hroll hfinal hlt.le m hon hm

end Stops

/-- With `hash_final_stop`, a run links its stop and each of its epoch counts
exactly once if and only if its guest stops clean. -/
theorem one_link_per_stop_iff (h : runSegment P fuel req rail chain caller = .ok (out, s'))
    (hhash : req.options.hashFinalStop = true) :
    ∃ ds, Traced (Does P req (timerSlotOf req)) ds (startSeg req rail chain caller) s' ∧
      (∀ read, ReadsLabels P read → read out.stateHash = read chain ++ linkLabels ds) ∧
      (LinkedOnce (epochGrid P req.options) req.startIcount out.boundary.icount (linkLabels ds) ↔
        StopsClean P fuel req rail chain caller) := by
  suffices hmain : ∃ ds, Traced (Does P req (timerSlotOf req)) ds
      (startSeg req rail chain caller) s' ∧
      (LinkedOnce (epochGrid P req.options) req.startIcount out.boundary.icount (linkLabels ds) ↔
        StopsClean P fuel req rail chain caller) by
    obtain ⟨ds, htraced, hiff⟩ := hmain
    refine ⟨ds, htraced, fun read hread => ?_, hiff⟩
    rw [runSegment_stateHash h]
    exact read_of_traced hread htraced
  rcases runSegment_last h with ⟨hopening, hfinish⟩ |
    ⟨injections, timerSlot, it, k, w, p, it', r, hwalks, hnext, hdone, hsettle⟩
  · -- no frame to wait for: one link, at the start
    rw [hhash] at hfinish
    have hstart : (startSeg req rail chain caller).rail.icount = req.startIcount :=
      opening_none hopening
    obtain ⟨ds, vns, hds, hboundary⟩ := finishAtCounter_conduct req (timerSlotOf req) hfinish
    refine ⟨ds, hds.traced, ?_⟩
    rw [hds.linkLabels_eq, hboundary, hstart]
    refine iff_of_true (((tallied_nil _ _).linkedOnce_iff le_rfl).mpr ⟨?_, ?_⟩) ⟨?_, ?_⟩
    · intro m _ hlt hlt'
      omega
    · omega
    · rintro s1 ⟨_, _, _, _, _, _, _, _, hwalks, -⟩
      cases hopening.symm.trans hwalks.opening_eq
    · rintro p s1 ⟨_, _, _, _, _, _, _, _, _, hwalks, -⟩
      cases hopening.symm.trans hwalks.opening_eq
  obtain ⟨rfl, -⟩ := timed_eq_some hwalks.timed_eq
  obtain ⟨cur, ds, inputs, vectors, links, hprogress, hfacing⟩ := hwalks.facing hnext
  have hsofar := hprogress.tally.conduct
  rcases atPoint_stages P req fuel injections (timerSlotOf req) p w.2 with ⟨u, hland, hpoint⟩ |
    ⟨e, hpoint⟩ | ⟨s1, queued, hpoised, ⟨u, hdeliver, hpoint⟩ | ⟨s2, hdeliver⟩⟩
  · obtain rfl := Fuel.Step.done.inj (hdone.symm.trans (walkStep_of_atPoint_error hnext hpoint))
    obtain ⟨s1, reason, hu, hfinish⟩ := settle_error_eq_ok hsettle
    rw [hhash] at hfinish
    obtain ⟨⟨hflown, hlt⟩, -⟩ :=
      (landAt_spec P req (timerSlotOf req) fuel p.icount w.2).of_error hland s1 hu
    obtain ⟨ds1, hds1⟩ := hflown.conduct
    obtain ⟨ds', htraced, hlabels, hboundary⟩ := labels_of_finishAtCounter hsofar hds1 hfinish
    refine ⟨ds', htraced, ?_⟩
    rw [hlabels, hboundary, stopsClean_flight_iff hwalks hnext hland hu]
    exact hfacing.linkedOnce_short_iff (hprogress.cur_le.trans hflown.icount_le) hlt
  · obtain rfl := Fuel.Step.done.inj (hdone.symm.trans (walkStep_of_atPoint_error hnext hpoint))
    cases hsettle
  · obtain rfl := Fuel.Step.done.inj (hdone.symm.trans (walkStep_of_atPoint_error hnext hpoint))
    obtain ⟨s2, reason, hu, hfinish⟩ := settle_error_eq_ok hsettle
    rw [hhash] at hfinish
    obtain ⟨⟨ds1, hds1⟩, hicount⟩ := hpoised.conduct (timerSlotOf req)
    obtain ⟨⟨ds2, done, hds2, -⟩, -⟩ :=
      (deliver_spec P req (timerSlotOf req) fuel true _ s1).of_error hdeliver s2 hu
    obtain ⟨ds', htraced, hlabels, hboundary⟩ :=
      labels_of_finishAtCounter hsofar (hds1.trans hds2) hfinish
    refine ⟨ds', htraced, ?_⟩
    rw [hlabels, hboundary, stopsClean_deferral_iff hwalks hnext hpoised hdeliver hu]
    exact hfacing.linkedOnce_past_iff (hicount ▸ hds2.icount_le)
  · obtain ⟨ds', htraced, hlinked⟩ := linkedOnce_of_delivered hhash hsofar hfacing hnext hpoised
      hdeliver hdone hsettle
    exact ⟨ds', htraced, iff_of_true hlinked
      (stopsClean_of_delivered hwalks hnext hdone hpoised hdeliver)⟩

lemma stopsClean_counting (epochLen fuel : ℕ) (req : RunRequest LinkTrace ℕ τ)
    (rail : Rail LinkTrace ℕ) (chain : LinkTrace) (caller : τ) :
    StopsClean (counting epochLen) fuel req rail chain caller := by
  have hnever {u : Unwind LinkTrace ℕ τ}
      (h : ∃ s, onEntered (counting epochLen) req s (enter (counting epochLen) s.rail) =
        .error u) : False := by
    obtain ⟨s, hs⟩ := h
    cases hs
  constructor
  · rintro s' ⟨_, timerSlot, _, _, w, p, _, u, -, -, hland, hu⟩
    exact (hnever ((landAt_spec _ req timerSlot fuel p.icount w.2).of_error hland s' hu).2).elim
  · rintro p s' ⟨_, timerSlot, _, _, _, _, s, _, u, -, -, -, hdeliver, hu⟩
    exact (hnever ((deliver_spec _ req timerSlot fuel true _ s).of_error hdeliver s' hu).2).elim

/-- Two epochs and the final stop between them. -/
theorem one_link_per_stop_counting :
    ∃ out s' ds, runSegment (counting 10) 50 (injectedRun (counting 10) (.icountBudget 25) [])
        (freshCount (counting 10)).rail [] () = .ok (out, s') ∧
      LinkedOnce (some 10) 0 out.boundary.icount (linkLabels ds) := by
  obtain ⟨r, hrun⟩ : ∃ r, runSegment (counting 10) 50 (injectedRun (counting 10)
      (.icountBudget 25) []) (freshCount (counting 10)).rail [] () = .ok r :=
    Except.exists_eq_ok (by decide +kernel)
  obtain ⟨ds, -, -, hiff⟩ := one_link_per_stop_iff hrun rfl
  exact ⟨r.1, r.2, ds, hrun, hiff.mpr (stopsClean_counting 10 50 _ _ _ _)⟩

def haltsAtTen : Platform LinkTrace ℕ Unit :=
  { counting 10 with run := fun s => if s = 10 then .hlt s else .debug 1 (s + 1) }

/-- The run links the epoch count 10, goes on, and links 10 again when the guest
halts there. -/
theorem halt_relinks_epoch :
    (runSegment haltsAtTen 50 (injectedRun haltsAtTen (.icountBudget 20) [])
        (freshCount haltsAtTen).rail [] ()).toOption.map
      (fun r => (r.1.reason, r.1.boundary.icount, r.1.stateHash.map (·.2.1))) =
    some (.guestHalted, 10, [10, 10]) := by
  decide +kernel

end DetHypervisor
