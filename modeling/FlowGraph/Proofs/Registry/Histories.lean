import FlowGraph.Proofs.Registry.Logbook
import Mathlib.Data.List.Induction

/-!
# What becomes of a registry that is used

A registry may be used in any order: executors are registered and replaced, all of them are started
and stopped, again and again, and one is asked for.  Whatever hooks fail on the way, each start and
each shutdown goes as it should, an executor is handed out only while the registry is initialized,
and it was started with success if nothing was registered since: `regular_after`.

The last part needs an invariant from use to use.  It is `Registry.Ready`, which asks nothing of a
registry that is not initialized; so it holds from any start on that was not idle, until an executor
is registered.
-/

namespace FlowGraph

namespace Registry

variable {ε ε' ω ω' : Type}

/-! ## Uses of a registry -/

/-- What is done with a registry. -/
inductive Use (ε : Type) where
  | register (t : NodeType) (e : ε)
  | start
  | stop
  | get (t : NodeType)

/-- A use leaves a registry and its world. -/
def Use.apply (hooks : Lifecycle ε ω) (state : Registry ε × ω) : Use ε → Registry ε × ω
  | register t e => ((state.1.register t e).2, state.2)
  | start => (state.1.startAll hooks state.2).2
  | stop => (state.1.stopAll hooks state.2).2
  | get _ => state

/-- A registry that was empty, and its world, after it was used. -/
def after (hooks : Lifecycle ε ω) (world : ω) (uses : List (Use ε)) : Registry ε × ω :=
  uses.foldl (Use.apply hooks) (empty, world)

/-- The same use for the executors that others stand for. -/
def Use.map (f : ε' → ε) : Use ε' → Use ε
  | register t e => register t (f e)
  | start => start
  | stop => stop
  | get t => get t

/-- The use with an executor that logs its hooks. -/
def Use.enroll : Use ε → Use (Member ε)
  | register t e => register t ⟨⟨e, []⟩, t⟩
  | start => start
  | stop => stop
  | get t => get t

/-- A registry whose executors log their hooks, after it was used, and its world. -/
def logbook (hooks : Lifecycle ε ω) (world : ω) (uses : List (Use ε)) :
    Registry (Member ε) × Logged ω :=
  after hooks.logged ⟨world, []⟩ (uses.map Use.enroll)

lemma after_concat (hooks : Lifecycle ε ω) (world : ω) (uses : List (Use ε)) (use : Use ε) :
    after hooks world (uses ++ [use]) = use.apply hooks (after hooks world uses) := by
  rw [after, List.foldl_append]
  rfl

lemma logbook_concat (hooks : Lifecycle ε ω) (world : ω) (uses : List (Use ε)) (use : Use ε) :
    logbook hooks world (uses ++ [use]) =
      use.enroll.apply hooks.logged (logbook hooks world uses) := by
  rw [logbook, List.map_append]
  exact after_concat hooks.logged _ _ use.enroll

/-! ## Nothing is changed by the logbook -/

lemma after_shadow {f : ε' → ε} {g : ω' → ω} {hooks' : Lifecycle ε' ω'} {hooks : Lifecycle ε ω}
    (h : hooks'.Shadows f g hooks) (world : ω') (uses : List (Use ε')) :
    after hooks (g world) (uses.map (Use.map f)) =
      ((after hooks' world uses).1.map f, g (after hooks' world uses).2) := by
  induction uses using List.reverseRecOn with
  | nil => rfl
  | append_singleton uses use ih =>
    rw [List.map_append, List.map_singleton, after_concat, after_concat, ih]
    cases use with
    | register t e => exact congrArg (Prod.mk · _) (map_set f _ t e).symm
    | start => exact congrArg Prod.snd (startAll_shadow h _ _)
    | stop => exact congrArg Prod.snd (stopAll_shadow h _ _)
    | get t => rfl

lemma after_eq_logbook (hooks : Lifecycle ε ω) (world : ω) (uses : List (Use ε)) :
    after hooks world uses =
      ((logbook hooks world uses).1.map fun m => m.executor,
        (logbook hooks world uses).2.world) := by
  have hplain := after_shadow hooks.logged_shadows_executor ⟨world, []⟩ (uses.map Use.enroll)
  have huses : (uses.map Use.enroll).map (Use.map fun m : Member ε => m.executor) = uses := by
    rw [List.map_map]
    refine (List.map_congr_left fun use _ => ?_).trans (List.map_id uses)
    cases use <;> rfl
  rw [huses] at hplain
  exact hplain

/-! ## What holds after all uses -/

section Uses

variable (hooks : Lifecycle ε ω) {r : Registry (Member ε)} {w : Logged ω}

/-- Each use but a registration calls hooks, if anything. -/
lemma Use.exists_calls (hr : r.Enrolls) (use : Use ε) (huse : ∀ t e, use ≠ .register t e) :
    ∃ calls, Calls calls r w (use.enroll.apply hooks.logged (r, w)).1
      (use.enroll.apply hooks.logged (r, w)).2 := by
  cases use with
  | register t e => exact absurd rfl (huse t e)
  | start =>
    rcases hinitialized : r.initialized with _ | _
    · exact (starting_startAll hooks hr hinitialized w).exists_calls
    · refine ⟨[], ?_⟩
      show Calls [] r w (r.startAll hooks.logged w).2.1 (r.startAll hooks.logged w).2.2
      rw [startAll, if_pos hinitialized]
      exact .nil hr _
  | stop => exact (stopping_stopAll hooks hr w).exists_calls
  | get t => exact ⟨[], .nil hr _⟩

/-- After all uses each executor is registered for its category, and there are executors for those
categories that one was registered for. -/
lemma logbook_registered (world : ω) (uses : List (Use ε)) :
    (logbook hooks world uses).1.Enrolls ∧
      ∀ t, ((logbook hooks world uses).1.executor? t).isSome = true ↔
        ∃ e, Use.register t e ∈ uses := by
  induction uses using List.reverseRecOn with
  | nil => exact ⟨nofun, fun t => ⟨nofun, nofun⟩⟩
  | append_singleton uses use ih =>
    obtain ⟨henrolls, hregistered⟩ := ih
    rw [logbook_concat]
    by_cases huse : ∃ u e, use = .register u e
    · -- a registration fills one place; all other uses only call hooks
      obtain ⟨u, e, rfl⟩ := huse
      refine ⟨henrolls.set rfl, fun t => ?_⟩
      show ((if t = u then _ else _ : Option (Member ε))).isSome = true ↔ _
      split
      · next htu => simp [htu]
      · next htu => simp [hregistered, htu]
    · have hother : ∀ t e, use ≠ .register t e := fun t e heq => huse ⟨t, e, heq⟩
      obtain ⟨calls, hcalls⟩ :=
        use.exists_calls hooks (w := (logbook hooks world uses).2) henrolls hother
      refine ⟨hcalls.enrolls, fun t => ?_⟩
      rw [hcalls.isSome, hregistered]
      simp only [List.mem_append, List.mem_singleton, (hother t _).symm, or_false]

/-- Uses that register nothing keep a registry ready. -/
lemma Ready.apply (h : (r.map Member.toChronicled).Ready) (use : Use ε)
    (huse : ∀ t e, use ≠ .register t e) :
    ((use.enroll.apply hooks.logged (r, w)).1.map Member.toChronicled).Ready := by
  cases use with
  | register t e => exact absurd rfl (huse t e)
  | start =>
    have hstart := startAll_shadow hooks.logged_shadows r w
    have hready := h.startAll hooks w.world
    rw [hstart] at hready
    exact hready
  | stop =>
    have hstop := stopAll_shadow hooks.logged_shadows r w
    have hready := ready_stopAll hooks (r.map Member.toChronicled) w.world
    rw [hstop] at hready
    exact hready
  | get t => exact h

/-- Once a registry does not count as initialized, it is ready as long as nothing is registered. -/
lemma ready_logbook (world : ω) (before since : List (Use ε))
    (hinitialized : (logbook hooks world before).1.initialized = false)
    (hsince : ∀ t e, Use.register t e ∉ since) :
    ((logbook hooks world (before ++ since)).1.map Member.toChronicled).Ready := by
  induction since using List.reverseRecOn with
  | nil =>
    rw [List.append_nil]
    -- the registry does not count as initialized, so nothing is asked of its executors
    intro hready
    rw [map, hinitialized] at hready
    cases hready
  | append_singleton since use ih =>
    have hrest := ih fun t e hmem => hsince t e (List.mem_append_left _ hmem)
    rw [← List.append_assoc, logbook_concat]
    refine Ready.apply hooks hrest use fun t e heq => hsince t e ?_
    rw [heq]
    exact List.mem_append_right _ (List.mem_singleton_self _)

end Uses

/-! ## The whole history -/

/-- A registry that was used, and what it does next: `r` and `w` are the registry and its world with
a logbook. -/
structure Regular (hooks : Lifecycle ε ω) (world : ω) (uses : List (Use ε))
    (r : Registry (Member ε)) (w : Logged ω) : Prop where
  /-- It is the registry without the logbook that was used in the same way. -/
  plain : after hooks world uses = (r.map fun m => m.executor, w.world)
  /-- Without the logbook a start ends in the same way. -/
  plainStart : ((after hooks world uses).1.startAll hooks (after hooks world uses).2).1 =
    (r.startAll hooks.logged w).1
  /-- And so does a shutdown. -/
  plainStop : ((after hooks world uses).1.stopAll hooks (after hooks world uses).2).1 =
    (r.stopAll hooks.logged w).1
  /-- The executors stand under their categories, one for each that was registered. -/
  enrolls : r.Enrolls
  registered : ∀ t, (r.executor? t).isSome = true ↔ ∃ e, Use.register t e ∈ uses
  distinct : r.nodeTypes.Nodup
  /-- An initialized registry starts nothing. -/
  idle : r.initialized = true → r.startAll hooks.logged w = (.ok (), r, w)
  /-- Any other starts its executors in order, up to one that fails. -/
  starts : r.initialized = false → Starting r.nodeTypes [] r w (r.startAll hooks.logged w)
  /-- All executors are stopped in order, whatever fails. -/
  stops : Stopping r.nodeTypes r w (r.stopAll hooks.logged w)
  /-- There is an executor to get when the registry is initialized and one was registered. -/
  gets : ∀ t, (∃ m, r.get t = .ok m) ↔ r.initialized = true ∧ ∃ e, Use.register t e ∈ uses
  /-- It was started with success when nothing was registered since a start that was not idle. -/
  started : ∀ before since, uses = before ++ .start :: since →
    (after hooks world before).1.initialized = false → (∀ t e, Use.register t e ∉ since) →
    ∀ t m, r.get t = .ok m → m.IsStarted

/-- **A registry is regular whatever was done with it**, and whichever of its executors fail to
start or to stop on the way. -/
theorem regular_after (hooks : Lifecycle ε ω) (world : ω) (uses : List (Use ε)) :
    Regular hooks world uses (logbook hooks world uses).1 (logbook hooks world uses).2 := by
  have hplain := after_eq_logbook hooks world uses
  obtain ⟨henrolls, hregistered⟩ := logbook_registered hooks world uses
  have hshadows := hooks.logged_shadows_executor
  refine
    { plain := hplain
      plainStart := ?_
      plainStop := ?_
      enrolls := henrolls
      registered := hregistered
      distinct := List.filter_sublist.nodup (by decide)
      idle := fun hinitialized => ?_
      starts := fun hinitialized => starting_startAll hooks henrolls hinitialized _
      stops := stopping_stopAll hooks henrolls _
      gets := fun t => ?_
      started := fun before since huses hinitialized hsince t m hget => ?_ }
  · rw [hplain, startAll_shadow hshadows]
  · rw [hplain, stopAll_shadow hshadows]
  · rw [startAll, if_pos hinitialized]
  · simp only [get_eq_ok, exists_and_left, ← hregistered, Option.isSome_iff_exists]
  · have hbefore : (logbook hooks world before).1.initialized = false := by
      rw [after_eq_logbook] at hinitialized
      exact hinitialized
    have hnone : ∀ t e, Use.register t e ∉ .start :: since := by
      intro t e hmem
      rcases List.mem_cons.1 hmem with hstart | hrest
      · cases hstart
      · exact hsince t e hrest
    have hready := ready_logbook hooks world before (.start :: since) hbefore hnone
    rw [← huses] at hready
    have hsame : ((logbook hooks world uses).1.map Member.toChronicled).get t =
        .ok m.toChronicled := by
      rw [get_map, hget]
      rfl
    exact (hready.get hsame).2

/-- The second executor fails to start: the first one is stopped again, which fails as well, and the
third one is left alone. -/
example :
    let failure : NodeError := .initialization "no pool"
    let hooks : Lifecycle (Bool × Bool) Unit :=
      ⟨fun e world => (if e.1 then some failure else none, e, world),
        fun e world => (if e.2 then some failure else none, e, world)⟩
    let uses : List (Use (Bool × Bool)) :=
      [.register .output (false, false), .register .action (true, false),
        .register .trigger (false, true), .start]
    (logbook hooks () uses).2.log =
      [(.trigger, .started none), (.action, .started (some failure)),
        (.trigger, .stopped (some failure))] := by
  decide

end Registry

end FlowGraph
