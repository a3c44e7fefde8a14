import Mathlib.Data.List.Nodup
import Chronicle.Proofs.Program.Answers

/-!
# What programs know stays true

Facts that a program has been told hold of the world at that time.  Some of them last: a history
that was read stays the beginning of the history, a run keeps its origin, and an id that was drawn
belongs to nobody else.  This is why a commit at the expected version was built from exactly the
history that it is added to.
-/

namespace Chronicle

open Relation (ReflTransGen)

/-- What a program knows holds of a world. -/
structure Knows (world : World) (knowledge : Knowledge) : Prop where
  drawn : ∀ runId ∈ knowledge.drawn, ∃ number < world.drawnRuns, runId = World.runId number
  unused : ∀ runId ∈ knowledge.drawn, ¬ world.store.runs.Uses runId
  distinct : knowledge.drawn.Nodup
  run : ∀ run, knowledge.run = some run →
    ∃ record, world.store.runs.find? run.ref = some record ∧ record.run.origin = run.origin
  history : ∀ ref history, knowledge.history = some (ref, history) →
    ∃ record, world.store.runs.find? ref = some record ∧ history <+: record.events

theorem Knows.nothing (world : World) : Knows world .nothing where
  drawn := by simp [Knowledge.nothing]
  unused := by simp [Knowledge.nothing]
  distinct := List.nodup_nil
  run := by simp [Knowledge.nothing]
  history := by simp [Knowledge.nothing]

/-- No run has an id that the supply will hand out later. -/
def World.Supplied (world : World) : Prop :=
  ∀ number, world.drawnRuns ≤ number → ¬ world.store.runs.Uses (World.runId number)

variable {warrants : RunRecord → Commit → Prop} {announces : Event → Prop}

/-- How a world changes while a program that knows something has a request answered. -/
structure Change (warrants : RunRecord → Commit → Prop) (announces : Event → Prop)
    (known learnt : Knowledge) (before after : World) : Prop where
  steps : ReflTransGen (RunTable.Step warrants announces) before.store.runs after.store.runs
  /-- Ids come into use by the program that has drawn them. -/
  uses : ∀ runId, after.store.runs.Uses runId →
    before.store.runs.Uses runId ∨ (runId ∈ known.drawn ∧ runId ∉ learnt.drawn)
  supply : before.drawnRuns ≤ after.drawnRuns
  drawn : ∀ runId ∈ learnt.drawn, runId ∈ known.drawn ∨
    (runId = World.runId before.drawnRuns ∧ before.drawnRuns < after.drawnRuns)

theorem Change.refl (known : Knowledge) (world : World) :
    Change warrants announces known known world world where
  steps := .refl
  uses := fun _ huses => .inl huses
  supply := Nat.le_refl _
  drawn := fun _ hmem => .inl hmem

theorem Change.of_lasting {known learnt : Knowledge} {before after : World}
    (hlasting : after.lasting = before.lasting) (hdrawn : learnt.drawn = known.drawn) :
    Change warrants announces known learnt before after := by
  simp only [World.lasting, Prod.mk.injEq] at hlasting
  obtain ⟨hruns, hsupply⟩ := hlasting
  constructor
  case steps => rw [hruns]
  case uses =>
    intro runId huses
    rw [hruns] at huses
    exact .inl huses
  case supply => exact Nat.le_of_eq hsupply.symm
  case drawn =>
    intro runId hmem
    rw [hdrawn] at hmem
    exact .inl hmem

theorem Change.supplied {known learnt : Knowledge} {before after : World}
    (change : Change warrants announces known learnt before after) (knows : Knows before known)
    (hsupplied : before.Supplied) : after.Supplied := by
  intro number hnumber huses
  have hsupply := change.supply
  rcases change.uses _ huses with hbefore | ⟨hmine, -⟩
  · exact hsupplied number (by omega) hbefore
  · obtain ⟨mine, hlt, heq⟩ := knows.drawn _ hmine
    have hsame := World.runId_injective heq
    omega

/-- What a program knows stays true while another one, with ids of its own, has a request
answered. -/
theorem Knows.later {known learnt other : Knowledge} {before after : World}
    (knows : Knows before other) (change : Change warrants announces known learnt before after)
    (hdisjoint : ∀ runId ∈ other.drawn, runId ∉ known.drawn) : Knows after other where
  drawn := by
    intro runId hmem
    obtain ⟨number, hlt, heq⟩ := knows.drawn runId hmem
    have hsupply := change.supply
    exact ⟨number, by omega, heq⟩
  unused := by
    intro runId hmem huses
    rcases change.uses runId huses with hbefore | ⟨htheirs, -⟩
    · exact knows.unused runId hmem hbefore
    · exact hdisjoint runId hmem htheirs
  distinct := knows.distinct
  run := by
    intro run hrun
    obtain ⟨record, hfind, horigin⟩ := knows.run run hrun
    obtain ⟨later, hlater, -, hsame⟩ := RunTable.find?_of_steps change.steps hfind
    exact ⟨later, hlater, hsame.trans horigin⟩
  history := by
    intro ref history hhistory
    obtain ⟨record, hfind, hinitial⟩ := knows.history ref history hhistory
    obtain ⟨later, hlater, hgrown, -⟩ := RunTable.find?_of_steps change.steps hfind
    exact ⟨later, hlater, hinitial.trans hgrown⟩

theorem Change.disjoint {known learnt other : Knowledge} {before after : World}
    (change : Change warrants announces known learnt before after) (knows : Knows before other)
    (hdisjoint : ∀ runId ∈ other.drawn, runId ∉ known.drawn) :
    ∀ runId ∈ other.drawn, runId ∉ learnt.drawn := by
  intro runId hmem hlearnt
  rcases change.drawn runId hlearnt with hmine | ⟨hnew, -⟩
  · exact hdisjoint runId hmem hmine
  · obtain ⟨number, hlt, heq⟩ := knows.drawn runId hmem
    rw [hnew] at heq
    have hsame := World.runId_injective heq
    omega

/-! ## The program whose request is answered -/

/-- What the program itself knows after the change, apart from what it has just been told. -/
theorem Knows.mine {known learnt : Knowledge} {before after : World} (knows : Knows before known)
    (hsupplied : before.Supplied) (change : Change warrants announces known learnt before after)
    (hdistinct : learnt.drawn.Nodup)
    (hrun : ∀ run, learnt.run = some run → known.run = some run ∨
      ∃ record, after.store.runs.find? run.ref = some record ∧ record.run.origin = run.origin)
    (hhistory : ∀ ref history, learnt.history = some (ref, history) →
      known.history = some (ref, history) ∨
        ∃ record, after.store.runs.find? ref = some record ∧ history <+: record.events) :
    Knows after learnt where
  drawn := by
    intro runId hmem
    have hsupply := change.supply
    rcases change.drawn runId hmem with hmine | ⟨hnew, hlt⟩
    · obtain ⟨number, hnumber, heq⟩ := knows.drawn runId hmine
      exact ⟨number, by omega, heq⟩
    · exact ⟨before.drawnRuns, hlt, hnew⟩
  unused := by
    intro runId hmem huses
    rcases change.uses runId huses with hbefore | ⟨-, hgone⟩
    · rcases change.drawn runId hmem with hmine | ⟨hnew, -⟩
      · exact knows.unused runId hmine hbefore
      · exact hsupplied _ (Nat.le_refl _) (hnew ▸ hbefore)
    · exact hgone hmem
  distinct := hdistinct
  run := by
    intro run hsome
    rcases hrun run hsome with hknown | htold
    · obtain ⟨record, hfind, horigin⟩ := knows.run run hknown
      obtain ⟨later, hlater, -, hsame⟩ := RunTable.find?_of_steps change.steps hfind
      exact ⟨later, hlater, hsame.trans horigin⟩
    · exact htold
  history := by
    intro ref history hsome
    rcases hhistory ref history hsome with hknown | htold
    · obtain ⟨record, hfind, hinitial⟩ := knows.history ref history hknown
      obtain ⟨later, hlater, hgrown, -⟩ := RunTable.find?_of_steps change.steps hfind
      exact ⟨later, hlater, hinitial.trans hgrown⟩
    · exact htold

/-- A permitted commit is built from exactly the history that it is added to. -/
theorem Knows.commit {charter : Charter} {knowledge : Knowledge} {world after : World}
    {ref : RunRef} {expected version : Nat} {commit : Commit} (knows : Knows world knowledge)
    (hpermits : charter.permits knowledge (.commit ref expected commit))
    (hanswer : World.answer (.commit ref expected commit) world = (.ok (.ok version), after)) :
    ∃ now run record, world.now = some now ∧ world.store.runs.find? ref = some record ∧
      record.isClosed = false ∧ record.events.length = expected ∧
      run.origin = record.run.origin ∧ charter.warrants run record.events commit ∧
      (∀ new ∈ commit.newRuns, world.store.runs.find? new.ref = none) ∧
      (commit.newRuns.map NewRun.ref).Nodup ∧
      after = { world with store := (world.store.apply ref commit now).wake } ∧
      ∀ revised, after.store.runs.find? ref = some revised → version = revised.events.length := by
  obtain ⟨run, history, hrun, href, hhistory, hlength, hwarrants, hdistinct, hdrawn⟩ := hpermits
  rcases World.answer_commit hanswer with ⟨error, herror, -⟩ | haccepted
  · cases herror
  · obtain ⟨number, now, record, hversion, hnow, hfind, hopen, hexpected, hafter, hlast⟩ := haccepted
    cases hversion
    obtain ⟨known, hknown, horigin⟩ := knows.run run hrun
    rw [href, hfind] at hknown
    cases hknown
    -- the history that was read is an initial part of the present one, and just as long
    obtain ⟨same, hsame, hinitial⟩ := knows.history ref history hhistory
    rw [hfind] at hsame
    cases hsame
    have hevents : history = record.events := hinitial.eq_of_length (by omega)
    refine ⟨now, run, record, hnow, hfind, hopen, hexpected, horigin.symm, hevents ▸ hwarrants, ?_,
      ?_, hafter, hlast⟩
    · intro new hmem
      exact RunTable.find?_of_not_uses
        (knows.unused _ (hdrawn _ (List.mem_map_of_mem hmem)))
    · apply List.Nodup.of_map RunRef.runId
      rw [List.map_map]
      exact hdistinct

/-- A charter whose commits are the steps that the given conditions describe. -/
structure Charter.Fits (charter : Charter) (warrants : RunRecord → Commit → Prop)
    (announces : Event → Prop) : Prop where
  warrants : ∀ (run : Run) (record : RunRecord) (commit : Commit),
    run.origin = record.run.origin → charter.warrants run record.events commit →
    warrants record commit
  announces : ∀ (run : Run) (history : List HistoryEvent) (commit : Commit),
    charter.warrants run history commit →
    ∀ notification ∈ commit.notifications, announces notification.event

theorem Change.freshRunId (known : Knowledge) (world : World) :
    Change warrants announces known (known.learn .freshRunId (World.runId world.drawnRuns)) world
      { world with drawnRuns := world.drawnRuns + 1 } where
  steps := .refl
  uses := fun _ huses => .inl huses
  supply := Nat.le_succ _
  drawn := by
    intro runId hmem
    rcases List.mem_cons.1 hmem with hnew | hold
    · exact .inr ⟨hnew, Nat.lt_succ_self _⟩
    · exact .inl hold

theorem Change.createRun {known : Knowledge} {world : World} {new : NewRun} (knows : Knows world known)
    (hdrawn : new.ref.runId ∈ known.drawn) (now : Instant) :
    Change warrants announces known (known.learn (.createRun new) (.ok ())) world
      { world with store := (world.store.startRun new now).wake } := by
  have hfresh := RunTable.find?_of_not_uses (knows.unused _ hdrawn)
  have hruns : (world.store.startRun new now).wake.runs = world.store.runs.create new now := by simp
  constructor
  case steps =>
    show ReflTransGen _ world.store.runs (world.store.startRun new now).wake.runs
    rw [hruns]
    exact .single (.created now hfresh)
  case uses =>
    -- a run that is found after the start was there before, or is the new one
    intro runId huses
    obtain ⟨ref, record, hfind, hid⟩ := huses
    have hfound : (world.store.runs.create new now).find? ref = some record := hruns ▸ hfind
    rw [RunTable.find?_create hfresh] at hfound
    split at hfound
    · rename_i href
      right
      rw [← hid, href]
      refine ⟨hdrawn, fun hmem => ?_⟩
      have hkept := (List.mem_filter.1 hmem).2
      simp at hkept
    · have hsome := RunTable.find?_linked_isSome world.store.runs new ref
      rw [hfound, Option.isSome_some] at hsome
      obtain ⟨earlier, hearlier⟩ := Option.isSome_iff_exists.1 hsome.symm
      exact .inl ⟨ref, earlier, hearlier, hid⟩
  case supply => exact Nat.le_refl _
  case drawn =>
    intro runId hmem
    exact .inl (List.mem_of_mem_filter hmem)

theorem Change.commit {charter : Charter} {known : Knowledge} {world after : World} {ref : RunRef}
    {expected version : Nat} {commit : Commit} (fits : charter.Fits warrants announces)
    (knows : Knows world known) (hpermits : charter.permits known (.commit ref expected commit))
    (hanswer : World.answer (.commit ref expected commit) world = (.ok (.ok version), after)) :
    Change warrants announces known (known.learn (.commit ref expected commit) (.ok version)) world
      after := by
  obtain ⟨now, run, record, hnow, hfind, hopen, -, horigin, hwarrants, hfresh, hdistinct, hafter,
    -⟩ := knows.commit hpermits hanswer
  obtain ⟨-, -, -, -, -, -, -, -, hdrawn⟩ := hpermits
  subst hafter
  have hruns : (world.store.apply ref commit now).wake.runs = world.store.runs.applied ref commit now
    := Store.apply_runs _ _ _ _
  obtain ⟨hsteps, hfinds⟩ := RunTable.steps_applied now hfind hopen
    (fits.warrants run record commit horigin hwarrants)
    (fits.announces run record.events commit hwarrants) hfresh hdistinct
  constructor
  case steps =>
    show ReflTransGen _ world.store.runs (world.store.apply ref commit now).wake.runs
    rw [hruns]
    exact hsteps
  case uses =>
    -- a run that is found after the commit was there before, or is begun by the commit
    intro runId huses
    obtain ⟨target, later, hlater, hid⟩ := huses
    have hsome := hfinds target
    have hfound : (world.store.runs.applied ref commit now).find? target = some later :=
      hruns ▸ hlater
    rw [hfound, Option.isSome_some] at hsome
    rcases Bool.or_eq_true_iff.1 hsome.symm with hthere | hnew
    · obtain ⟨earlier, hearlier⟩ := Option.isSome_iff_exists.1 hthere
      exact .inl ⟨target, earlier, hearlier, hid⟩
    · have hmem : target.runId ∈ commit.newRunIds := by
        obtain ⟨new, hnew, href⟩ := List.mem_map.1 (List.contains_iff_mem.1 hnew)
        exact List.mem_map.2 ⟨new, hnew, congrArg RunRef.runId href⟩
      rw [hid] at hmem
      refine .inr ⟨hdrawn runId hmem, fun hstill => ?_⟩
      have hkept := (List.mem_filter.1 hstill).2
      simp [hmem] at hkept
  case supply => exact Nat.le_refl _
  case drawn =>
    intro runId hmem
    exact .inl (List.mem_of_mem_filter hmem)

theorem Knows.unaffected {known : Knowledge} {world after : World} (knows : Knows world known)
    (hsupplied : world.Supplied) (hlasting : after.lasting = world.lasting) :
    Change warrants announces known known world after ∧ Knows after known := by
  have change : Change warrants announces known known world after := .of_lasting hlasting rfl
  exact ⟨change, knows.mine hsupplied change knows.distinct (fun _ hrun => .inl hrun)
    fun _ _ hhistory => .inl hhistory⟩

theorem Knows.freshRunId {known : Knowledge} {world : World} (knows : Knows world known)
    (hsupplied : world.Supplied) :
    World.runId world.drawnRuns ∉ known.drawn ∧
      Knows { world with drawnRuns := world.drawnRuns + 1 }
        (known.learn .freshRunId (World.runId world.drawnRuns)) := by
  have hnew : World.runId world.drawnRuns ∉ known.drawn := by
    intro hmem
    obtain ⟨number, hlt, heq⟩ := knows.drawn _ hmem
    have hsame := World.runId_injective heq
    omega
  have change : Change (fun _ _ => True) (fun _ => True) known _ world _ :=
    .freshRunId known world
  exact ⟨hnew, knows.mine hsupplied change (List.nodup_cons.2 ⟨hnew, knows.distinct⟩)
    (fun _ hrun => .inl hrun) fun _ _ hhistory => .inl hhistory⟩

theorem Knows.getRun {known : Knowledge} {world : World} {ref : RunRef} {record : RunRecord}
    (knows : Knows world known) (hsupplied : world.Supplied)
    (hfind : world.store.runs.find? ref = some record) :
    Knows world (known.learn (.getRun ref) (.ok record.run)) := by
  have change : Change (fun _ _ => True) (fun _ => True) known
      (known.learn (.getRun ref) (.ok record.run)) world world := .of_lasting rfl rfl
  apply knows.mine hsupplied change knows.distinct
  · intro run hrun
    cases hrun
    exact .inr ⟨record, (RunTable.ref_of_find? hfind).symm ▸ hfind, rfl⟩
  · exact fun _ _ hhistory => .inl hhistory

/-- A history that is read again has grown, if it has changed at all. -/
theorem Knows.readEvents {known : Knowledge} {world : World} {ref : RunRef} {record : RunRecord}
    (knows : Knows world known) (hsupplied : world.Supplied)
    (hfind : world.store.runs.find? ref = some record) :
    (∀ earlier, known.history = some (ref, earlier) → earlier <+: record.events) ∧
      Knows world (known.learn (.readEvents ref 0) (.ok record.events)) := by
  have change : Change (fun _ _ => True) (fun _ => True) known
      (known.learn (.readEvents ref 0) (.ok record.events)) world world := .of_lasting rfl rfl
  constructor
  · intro earlier hearlier
    obtain ⟨same, hsame, hinitial⟩ := knows.history ref earlier hearlier
    rw [hfind] at hsame
    cases hsame
    exact hinitial
  · apply knows.mine hsupplied change knows.distinct
    · exact fun _ hrun => .inl hrun
    · intro target history hhistory
      cases hhistory
      exact .inr ⟨record, hfind, List.prefix_rfl⟩

/-- Answers are credible, and what follows from them is true. -/
theorem Knows.answered {charter : Charter} {known : Knowledge} {world after : World}
    {request : Request} {answer : request.Answer} (fits : charter.Fits warrants announces)
    (knows : Knows world known) (hsupplied : world.Supplied)
    (hpermits : charter.permits known request)
    (hanswer : World.answer request world = (.ok answer, after)) :
    known.Credible request answer ∧
      Change warrants announces known (known.learn request answer) world after ∧
      Knows after (known.learn request answer) := by
  have hquiet : request ≠ .freshRunId → request.leavesRuns = true →
      Change warrants announces known known world after ∧ Knows after known := by
    intro hdraw hleaves
    exact knows.unaffected hsupplied ((World.leavesRuns_of_answer hleaves hanswer).lasting hdraw)
  cases request with
  | freshRunId =>
      simp only [World.answer, World.timeless_eq_ok, Prod.mk.injEq] at hanswer
      obtain ⟨hnew, hknows⟩ := knows.freshRunId hsupplied
      obtain ⟨hrunId, hafter⟩ := hanswer
      subst hrunId hafter
      exact ⟨hnew, .freshRunId known world, hknows⟩
  | createRun new =>
      obtain ⟨-, hdrawn⟩ := hpermits
      rcases World.answer_createRun hanswer with ⟨error, hresult, hafter⟩ | ⟨hresult, now, -, hafter⟩
      · subst hresult
        subst after
        exact ⟨trivial, .refl known world, knows⟩
      · subst hresult hafter
        have change : Change warrants announces known _ world _ := .createRun knows hdrawn now
        exact ⟨trivial, change, knows.mine hsupplied change (knows.distinct.filter _)
          (fun _ hrun => .inl hrun) fun _ _ hhistory => .inl hhistory⟩
  | commit ref expected commit =>
      rcases World.answer_commit hanswer with ⟨error, hresult, hafter⟩ | haccepted
      · subst hresult
        subst after
        exact ⟨trivial, .refl known world, knows⟩
      · obtain ⟨version, -, -, hresult, -⟩ := haccepted
        subst hresult
        have change := Change.commit fits knows hpermits hanswer
        exact ⟨trivial, change, knows.mine hsupplied change (knows.distinct.filter _)
          (fun _ hrun => .inl hrun) fun _ _ hhistory => .inl hhistory⟩
  | getRun ref =>
      obtain ⟨change, hknows⟩ := hquiet (by simp) rfl
      cases hresult : answer with
      | error error => exact ⟨trivial, change, hknows⟩
      | ok run =>
          rw [hresult] at hanswer
          obtain ⟨hafter, record, hfind, hrun⟩ := World.answer_getRun hanswer
          subst hafter hrun
          exact ⟨RunTable.ref_of_find? hfind, .of_lasting rfl rfl, knows.getRun hsupplied hfind⟩
  | readEvents ref skipped =>
      obtain ⟨change, hknows⟩ := hquiet (by simp) rfl
      cases skipped with
      | succ skipped => cases answer <;> exact ⟨trivial, change, hknows⟩
      | zero =>
          cases hresult : answer with
          | error error => exact ⟨trivial, change, hknows⟩
          | ok history =>
              rw [hresult] at hanswer
              obtain ⟨hafter, record, hfind, hhistory⟩ := World.answer_readEvents hanswer
              subst hafter hhistory
              obtain ⟨hgrown, hknows⟩ := knows.readEvents hsupplied hfind
              exact ⟨hgrown, .of_lasting rfl rfl, hknows⟩
  | _ =>
      obtain ⟨change, hknows⟩ := hquiet (by simp) rfl
      exact ⟨trivial, change, hknows⟩

end Chronicle
