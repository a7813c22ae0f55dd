import VerifyPipeline.Proofs.Run.PlanOrder
import VerifyPipeline.Proofs.Workspace.Guards

namespace VerifyPipeline

/-!
# The directory before

When the last guard is dropped the slot is free again, and the directory is current that was so
before the slot was taken, if it can still be entered.  No other guard has to do with the current
directory.  A run enters and leaves the workspace of every step, so it leaves the slot and the
current directory as it found them, whatever its steps come to.
-/

namespace Session

/-- How a session gives the current directory back. -/
structure GivesBack (session : Session) : Prop where
  /-- While a guard is alive, entering leaves the current directory alone. -/
  nested :
    session.guards ≠ [] →
      ∀ project workspace next,
        session.step (.enter project workspace) = some next →
          next.host.here = session.host.here
  /-- So does dropping a guard that is not the last one. -/
  kept :
    ∀ guard next,
      session.step (.drop guard) = some next →
        next.guards ≠ [] →
          next.host.here = session.host.here
  /-- Dropping the last guard frees the slot and leads back to where the slot was taken. -/
  last :
    ∀ guard next,
      session.step (.drop guard) = some next →
        next.guards = [] →
          next.host.held? = none ∧
            ∃ taking,
              session.taking? = some taking ∧
                (session.host.tree.Enterable taking.host.here.live →
                  next.host.here = taking.host.here)

theorem guards_drop_eq_nil_iff
    {session : Session}
    {guard : Nat}
    (alive : guard ∈ session.guards) :
    (session.drop guard).guards = [] ↔ session.guards.length = 1 := by
  have count : (session.drop guard).guards.length = session.guards.length - 1 :=
    List.length_erase_of_mem alive
  have positive := List.length_pos_of_mem alive
  rw [← List.length_eq_zero_iff, count]
  omega

theorem Balanced.givesBack
    {session : Session}
    (balanced : session.Balanced) :
    session.GivesBack where
  nested := by
    intro alive project workspace next stepped
    obtain ⟨held, holds⟩ := balanced.exists_holds alive
    cases leads_of_step stepped with
    | entered accepted =>
        obtain ⟨_, _, ⟨_, _, _, rfl⟩ | ⟨free, _⟩⟩ := Host.enter_cases accepted
        · rfl
        · rw [holds.slot] at free
          contradiction
    | refused _ =>
        rfl
  kept := by
    intro guard next stepped guarded
    cases leads_of_step stepped with
    | dropped alive =>
        obtain ⟨held, holds⟩ := balanced.exists_holds (List.ne_nil_of_mem alive)
        have positive := List.length_pos_of_mem alive
        rw [Ne, guards_drop_eq_nil_iff alive] at guarded
        have depth := holds.depth
        have left := Host.leave_of_nested holds.slot (by omega)
        simp only [drop, left]
  last := by
    intro guard next stepped unguarded
    cases leads_of_step stepped with
    | dropped alive =>
        obtain ⟨held, holds⟩ := balanced.exists_holds (List.ne_nil_of_mem alive)
        rw [guards_drop_eq_nil_iff alive] at unguarded
        have once : held.depth = 1 := holds.depth.trans unguarded
        refine ⟨Host.leave_of_held_once holds.slot once, ?_⟩
        obtain ⟨taking, isTaking, _, _, before⟩ := holds.taken
        refine ⟨taking, isTaking, fun enterable => ?_⟩
        rw [before] at enterable ⊢
        change session.host.leave.1.here = _
        rw [Host.leave_of_once holds.slot once, Host.restore_of_enterable enterable]

/-- A workspace that was held before the session is held by its guards as well. -/
def Atop (held : HeldWorkspace) (session : Session) : Prop :=
  session.host.held? = some { held with depth := held.depth + session.guards.length }

/-- Guards on top of those of before stay on top of them, with every move.  Below them stands one of
before, so none of them is the last one. -/
theorem Atop.leads
    {held : HeldWorkspace}
    {session next : Session}
    {move : Move}
    (positive : 0 < held.depth)
    (atop : session.Atop held)
    (leads : session.Leads move next) :
    next.Atop held := by
  cases leads with
  | entered accepted =>
      obtain ⟨_, _, ⟨other, holder, _, rfl⟩ | ⟨free, _⟩⟩ := Host.enter_cases accepted
      · obtain rfl := Option.some.inj (holder.symm.trans atop)
        rfl
      · rw [atop] at free
        contradiction
  | refused _ =>
      exact atop
  | dropped alive =>
      have count := List.length_erase_of_mem alive
      have guarded := List.length_pos_of_mem alive
      have left :=
        Host.leave_of_nested atop (by simp only; omega)
      simp only [Atop, drop, left, count, Option.some.injEq, HeldWorkspace.mk.injEq, true_and]
      omega
  | acted =>
      exact atop

/-- When all guards of a session are dropped, what was held before is held as it was. -/
theorem held?_of_released
    {host : Host}
    {moves : List Move}
    {session : Session}
    (positive : ∀ held, host.held? = some held → 0 < held.depth)
    (played : (start host).play moves = some session)
    (released : session.guards = []) :
    session.host.held? = host.held? := by
  cases holder : host.held? with
  | none =>
      rcases balanced_of_play holder played with ⟨free, _⟩ | ⟨_, holds⟩
      · exact free
      · exact absurd released holds.alive
  | some held =>
      have atStart : (start host).Atop held := holder
      have atop : session.Atop held :=
        play_induction (Atop.leads (positive held holder)) atStart played
      simpa [Atop, released] using atop

end Session

/-- A runner that drops every guard it takes: what it does to its host, it does by moves after which
none of its guards is alive. -/
def Runner.Releases (runner : Runner σ) : Prop :=
  ∀ step state host,
    ∃ moves session,
      (Session.start host).play moves = some session ∧
        session.guards = [] ∧
        (runner.run step state host).2 = session.host

namespace Pipeline

variable
  {pipeline : Pipeline σ}
  {host last : Host}

/-- After a call its workspace is held once, and the directory before it is known. -/
theorem Makes.exists_held
    {call : Call σ}
    (releases : pipeline.runner.Releases)
    (free : host.held? = none)
    (makes : pipeline.Makes host call) :
    ∃ held,
      call.left.held? = some held ∧ held.depth = 1 ∧ host.here = .ofLocation held.previous := by
  obtain ⟨directory, found, shape⟩ := Host.enter_cases makes.entered
  rcases shape with ⟨_, holder, _, _⟩ | ⟨_, previous, current, entered⟩
  · rw [free] at holder
    contradiction
  · let taken : HeldWorkspace :=
      { name := call.step.workspace.name, directory, previous, depth := 1 }
    have holds : call.entered.held? = some taken := by rw [entered]
    obtain ⟨moves, session, played, released, left⟩ :=
      releases call.step call.given call.entered
    rw [makes.returned] at left
    have same : call.left.held? = call.entered.held? := by
      refine (congrArg Host.held? left).trans (Session.held?_of_released ?_ played released)
      intro held holder
      rw [holds] at holder
      obtain rfl := Option.some.inj holder
      exact Nat.zero_lt_one
    exact ⟨taken, same.trans holds, rfl, Host.here_of_currentDirectory current⟩

/-- After a call the slot is free again, and the directory before it is current, if it can be
entered then. -/
theorem Makes.gives_back
    {call : Call σ}
    (releases : pipeline.runner.Releases)
    (free : host.held? = none)
    (makes : pipeline.Makes host call) :
    call.left.leave.1.held? = none ∧
      (call.left.tree.Enterable host.here.live → call.left.leave.1.here = host.here) := by
  obtain ⟨held, holder, once, before⟩ := makes.exists_held releases free
  refine ⟨Host.leave_of_held_once holder once, fun enterable => ?_⟩
  rw [before] at enterable ⊢
  rw [Host.leave_of_once holder once, Host.restore_of_enterable enterable]

/-- A call does not fail to give back a directory that can be entered. -/
theorem Makes.restores
    {call : Call σ}
    (releases : pipeline.runner.Releases)
    (free : host.held? = none)
    (makes : pipeline.Makes host call)
    (enterable : call.left.tree.Enterable host.here.live) :
    call.left.leave.2 = none := by
  obtain ⟨held, holder, once, before⟩ := makes.exists_held releases free
  rw [before] at enterable
  rw [Host.leave_of_once holder once, Host.restore_of_enterable enterable]

/-- What a call gives back, a chain of calls gives back. -/
theorem Chain.gives_back
    {state final : σ}
    {calls : List (Call σ)}
    (releases : pipeline.runner.Releases)
    (free : host.held? = none)
    (chain : pipeline.Chain state host calls final last) :
    last.held? = none ∧
      ((∀ call ∈ calls, call.left.tree.Enterable host.here.live) → last.here = host.here) := by
  induction chain with
  | nil =>
      exact ⟨free, fun _ => rfl⟩
  | cons makes _ inductionHypothesis =>
      obtain ⟨freed, returned⟩ := makes.gives_back releases free
      obtain ⟨free, later⟩ := inductionHypothesis freed
      refine ⟨free, fun enterable => ?_⟩
      have back := returned (enterable _ List.mem_cons_self)
      rw [back] at later
      exact later fun call member => enterable call (List.mem_cons_of_mem _ member)

/-- The calls of a chain do not fail to give back a directory that can be entered. -/
theorem Chain.restores
    {state final : σ}
    {calls : List (Call σ)}
    (releases : pipeline.runner.Releases)
    (free : host.held? = none)
    (chain : pipeline.Chain state host calls final last)
    (enterable : ∀ call ∈ calls, call.left.tree.Enterable host.here.live) :
    ∀ call ∈ calls, call.left.leave.2 = none := by
  induction chain with
  | nil =>
      exact List.forall_mem_nil _
  | cons makes _ inductionHypothesis =>
      obtain ⟨first, others⟩ := List.forall_mem_cons.mp enterable
      obtain ⟨freed, returned⟩ := makes.gives_back releases free
      rw [returned first] at inductionHypothesis
      exact List.forall_mem_cons.mpr
        ⟨makes.restores releases free first, inductionHypothesis freed others⟩

/-- A file that no call of a chain changes is afterwards as it was before. -/
theorem Chain.file_eq
    {state final : σ}
    {calls : List (Call σ)}
    {number : Nat}
    (chain : pipeline.Chain state host calls final last)
    (spares : ∀ call ∈ calls, call.left.tree.file number = call.entered.tree.file number) :
    last.tree.file number = host.tree.file number := by
  induction chain with
  | nil =>
      rfl
  | cons makes _ inductionHypothesis =>
      obtain ⟨spared, sparesLater⟩ := List.forall_mem_cons.mp spares
      rw [inductionHypothesis sparesLater, (Host.leave_frame _).1, spared,
        (Host.enter_frame makes.entered).1]

/-- The calls that a noting runner notes lead from the host before the run to the host after it. -/
theorem chain_of_noted
    (pipeline : Pipeline σ)
    (plan : Plan)
    (state : σ)
    (free : host.held? = none) :
    pipeline.Chain state host (pipeline.noting.execute plan (state, []) host).state.2
      (pipeline.execute plan state host).state (pipeline.execute plan state host).host := by
  rw [execute_of_free free pipeline]
  exact (pipeline.passes_noted plan state free).chain

/--
Sessions give the slot and the current directory back when their last guard is
dropped, and not before.  So a run leaves the slot as it found it, and the
current directory as well if the runner leaves the directory in place from
which the run was started.
-/
theorem directory_given_back :
    (∀ (host : Host) (moves : List Session.Move) (session : Session),
        host.held? = none →
          (Session.start host).play moves = some session →
            session.GivesBack) ∧
      ∀ (σ : Type) (pipeline : Pipeline σ) (plan : Plan) (state : σ) (host : Host),
        pipeline.runner.Releases →
          (pipeline.execute plan state host).host.held? = host.held? ∧
            ((∀ call ∈ (pipeline.noting.execute plan (state, []) host).state.2,
                call.left.tree.Enterable host.here.live) →
              (pipeline.execute plan state host).host.here = host.here) := by
  constructor
  · intro host moves session free played
    exact (Session.balanced_of_play free played).givesBack
  · intro σ pipeline plan state host releases
    cases holder : host.held? with
    | none =>
        have chain := pipeline.chain_of_noted plan state holder
        exact chain.gives_back releases holder
    | some held =>
        rw [execute_of_held holder]
        exact ⟨holder, fun _ => rfl⟩

/-- The theorem at a session whose first guard is dropped first, and at a run that a runner ends
after it has gone elsewhere. -/
theorem directory_given_back_elsewhere :
    let tree : FileTree := { entries := [(["a"], .directory), (["b"], .directory)] }
    let host : Host := { tree, here := .ofLocation ["b"] }
    let project : Project := ⟨[]⟩
    let moves : List Session.Move := [
      .enter project ⟨"w", "a", .empty⟩, .enter project ⟨"w", "/a", .empty⟩,
      .act tree .root 7, .drop 0]
    let wandering : Runner Nat :=
      { program := "cargo"
        run := fun _ count inside =>
          ((if count < 2 then .passed else .failed (some 1) none, count + 1),
            { inside with here := .ofLocation ["a"] }) }
    let pipeline : Pipeline Nat := ⟨wandering, project, .abort⟩
    let plan : Plan := .build {} .lexical .lexical
    let execution := pipeline.execute plan 0 host
    host.held? = none ∧
      (∃ session,
        (Session.start host).play moves = some session ∧
          session.guards = [1] ∧
          session.GivesBack) ∧
      wandering.Releases ∧
      execution.result.records.length = 3 ∧
      execution.host.held? = none ∧
      execution.host.here = .ofLocation ["b"] := by
  intro tree host project moves wandering pipeline plan execution
  have guards : ((Session.start host).play moves).map Session.guards = some [1] := by
    decide +kernel
  obtain ⟨session, played, alive⟩ := Option.map_eq_some_iff.mp guards
  have releases : wandering.Releases := fun _ _ inside =>
    ⟨[.act inside.tree (.ofLocation ["a"]) inside.clock], _, rfl, rfl, rfl⟩
  have back := directory_given_back.2 Nat pipeline plan 0 host releases
  have unmoved :
      (pipeline.noting.execute plan (0, []) host).state.2.map (fun call => call.left.tree) =
        [tree, tree, tree] := by
    decide +kernel
  have found : tree.canonicalize .root "/b" = .ok ["b"] := by rfl
  refine ⟨rfl, ⟨session, played, alive, directory_given_back.1 host moves session rfl played⟩,
    releases, by decide +kernel, back.1, back.2 fun call member => ?_⟩
  have same : call.left.tree ∈ [tree, tree, tree] := by
    rw [← unmoved]
    exact List.mem_map_of_mem member
  have still : call.left.tree = tree := by simpa using same
  rw [still]
  exact FileTree.enterable_of_canonicalize (by decide +kernel) found rfl

end Pipeline

end VerifyPipeline
