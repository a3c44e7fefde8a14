import Chronicle.Proofs.Engine.Writers

/-!
# What the log vouches for

Every revision of a run was logged, with the history that it was warranted for; and every logged
commit stands in the history of its run, right after that history.
-/

namespace Chronicle

open Relation (ReflTransGen)

universe u

theorem RunTable.Step.mono {first second : RunRecord → Commit → Prop} {announces : Event → Prop}
    {before after : RunTable} (step : Step first announces before after)
    (himplies : ∀ record commit, first record commit → second record commit) :
    Step second announces before after := by
  cases step with
  | revised now found isOpen warranted => exact .revised now found isOpen (himplies _ _ warranted)
  | notified now found isOpen announced => exact .notified now found isOpen announced
  | created now fresh => exact .created now fresh

namespace Scene

variable {ι : Type u} {ρ : Type} {charter : ι → Charter} {begins : ι → Program ρ}
  {before after scene : Scene ι ρ} {entry : LogEntry} {history : List HistoryEvent}

/-- The entry is logged, and its commit was warranted for the history. -/
structure Vouches (charter : ι → Charter) (scene : Scene ι ρ) (entry : LogEntry)
    (history : List HistoryEvent) : Prop where
  logged : entry ∈ scene.log
  expected : entry.acceptance.expected = history.length
  warranted : ∃ actor run, scene.actors[entry.actor]? = some actor ∧
    run.ref = entry.acceptance.ref ∧
    (charter actor.label).warrants run history entry.acceptance.commit

/-- The revision of the record is logged. -/
def Logs (charter : ι → Charter) (scene : Scene ι ρ) (record : RunRecord) (commit : Commit) : Prop :=
  ∃ entry, Vouches charter scene entry record.events ∧ entry.acceptance.ref = record.run.ref ∧
    entry.acceptance.commit = commit

theorem Step.mem_log (step : Step begins before after) (hmem : entry ∈ before.log) :
    entry ∈ after.log := by
  cases step with
  | act turn answered => exact List.mem_append_left _ hmem
  | _ => exact hmem

theorem Vouches.later (vouches : Vouches charter before entry history)
    (step : Step begins before after) : Vouches charter after entry history := by
  obtain ⟨actor, run, hactor, href, hwarranted⟩ := vouches.warranted
  obtain ⟨other, hother, hlabel⟩ := step.label hactor
  exact ⟨step.mem_log vouches.logged, vouches.expected, other, run, hother, href,
    hlabel ▸ hwarranted⟩

theorem Logs.later {record : RunRecord} {commit : Commit} (logs : Logs charter before record commit)
    (step : Step begins before after) : Logs charter after record commit := by
  obtain ⟨entry, vouches, hentry⟩ := logs
  exact ⟨entry, vouches.later step, hentry⟩

variable {post : ι → ρ → Knowledge → Prop} {warrants : RunRecord → Commit → Prop}
  {announces : Event → Prop} {know : Nat → Knowledge}

/-- An accepted commit is vouched for by the entry that it leaves in the log. -/
theorem vouches_of_commit {index : Nat} {label : ι} {ref : RunRef} {expected version : Nat}
    {commit : Commit} {next : Except StoreError Nat → Program ρ} {world : World}
    (turn : before.actors[index]? = some ⟨label, .ask (.commit ref expected commit) next⟩)
    (answered : World.answer (.commit ref expected commit) before.world = (.ok (.ok version), world))
    {run : Run} (href : run.ref = ref) (hlength : history.length = expected)
    (hwarranted : (charter label).warrants run history commit) :
    ∃ entry, entries index before.world (.commit ref expected commit) (.ok version) = [entry] ∧
      entry.acceptance = ⟨ref, expected, commit, version⟩ ∧ before.world.now = some entry.now ∧
      Vouches charter ⟨world, before.actors.set index ⟨label, next (.ok version)⟩,
        before.log ++ entries index before.world (.commit ref expected commit) (.ok version)⟩ entry
        history := by
  obtain ⟨now, hnow, -⟩ := World.timed_eq_ok answered
  have hentries := entries_commit hnow index ref expected version commit
  have hlt := (List.getElem?_eq_some_iff.1 turn).1
  refine ⟨_, hentries, rfl, hnow, ?_, hlength.symm, ?_⟩
  · rw [hentries]
    exact List.mem_append_right _ List.mem_cons_self
  · exact ⟨_, run, List.getElem?_set_self hlt, href, hwarranted⟩

/-- One step revises runs only as it logs. -/
theorem Follows.logs (fits : ∀ label, (charter label).Fits warrants announces)
    (follows : Follows charter post before know) (step : Step begins before after) :
    ReflTransGen (RunTable.Step (Logs charter after) announces) before.world.store.runs
      after.world.store.runs := by
  cases step with
  | enter label => exact .refl
  | tick now => exact .refl
  | fall turn answered =>
      rw [World.answer_eq_error answered]
  | @act index label request next answer world turn answered =>
      obtain ⟨-, hpermits, -⟩ := follows.keeps index _ turn
      -- the same request is permitted by a charter that warrants what is logged
      let logged : Charter :=
        { charter label with
          warrants := fun run history commit =>
            (∃ entry, Vouches charter ⟨world, before.actors.set index ⟨label, next answer⟩,
              before.log ++ entries index before.world request answer⟩ entry history ∧
              entry.acceptance.ref = run.ref ∧ entry.acceptance.commit = commit) ∧
            ∀ notification ∈ commit.notifications, announces notification.event }
      have hfits : logged.Fits (Logs charter ⟨world, before.actors.set index ⟨label, next answer⟩,
          before.log ++ entries index before.world request answer⟩) announces := by
        refine ⟨?_, fun _ _ _ hlogged => hlogged.2⟩
        rintro run record commit horigin ⟨⟨entry, vouches, href, hcommit⟩, -⟩
        exact ⟨entry, vouches, href.trans (Run.ref_eq_of_origin horigin), hcommit⟩
      have hchange : logged.permits (know index) request →
          ReflTransGen (RunTable.Step (Logs charter ⟨world,
            before.actors.set index ⟨label, next answer⟩,
            before.log ++ entries index before.world request answer⟩) announces)
            before.world.store.runs world.store.runs := by
        intro hlogged
        obtain ⟨-, change, -⟩ :=
          (follows.knows index).answered hfits follows.supplied hlogged answered
        exact change.steps
      cases request with
      | commit ref expected commit =>
          cases answer with
          | error error =>
              rcases World.answer_commit answered with ⟨_, -, hworld⟩ | ⟨_, -, -, hversion, -⟩
              · rw [hworld]
              · cases hversion
          | ok version =>
              obtain ⟨run, history, hrun, href, hhistory, hlength, hwarranted, hids⟩ := hpermits
              obtain ⟨entry, -, hacceptance, -, vouches⟩ :=
                vouches_of_commit turn answered href hlength hwarranted
              refine hchange ⟨run, history, hrun, href, hhistory, hlength, ⟨⟨entry, vouches, ?_, ?_⟩,
                (fits label).announces run history commit hwarranted⟩, hids⟩
              · rw [hacceptance, href]
              · rw [hacceptance]
      | _ => exact hchange hpermits

/-- All that was done to the runs since the beginning is logged. -/
theorem Follows.logged (hbegins : ∀ label, (begins label).Keeps (charter label) (post label) .nothing)
    (fits : ∀ label, (charter label).Fits warrants announces)
    (follows : Follows charter post before know) (reaches : Reaches begins before after) :
    ReflTransGen (RunTable.Step (Logs charter after) announces) before.world.store.runs
      after.world.store.runs := by
  induction reaches with
  | refl => exact .refl
  | tail earlier step ih =>
      obtain ⟨later, hlater⟩ := follows.reaches hbegins fits earlier
      exact (ih.lift id fun _ _ revised => revised.mono fun _ _ logs => logs.later step).trans
        (hlater.logs fits step)

/-- The commit of the entry stands in the history of its run, after the part that it was warranted
for. -/
def Stands (charter : ι → Charter) (scene : Scene ι ρ) (entry : LogEntry) : Prop :=
  ∃ record front rest, scene.world.store.runs.find? entry.acceptance.ref = some record ∧
    record.events = front ++ RunRecord.number entry.now (front.length + 1)
      entry.acceptance.commit.events ++ rest ∧
    Vouches charter scene entry front

theorem Stands.later (fits : ∀ label, (charter label).Fits warrants announces)
    (follows : Follows charter post before know) (stands : Stands charter before entry)
    (step : Step begins before after) : Stands charter after entry := by
  obtain ⟨record, front, rest, hfind, hevents, vouches⟩ := stands
  obtain ⟨later, hlater, ⟨more, hmore⟩, -⟩ := RunTable.find?_of_steps (follows.table fits step) hfind
  refine ⟨later, front, rest ++ more, hlater, ?_, vouches.later step⟩
  rw [← hmore, hevents, List.append_assoc]

theorem Follows.stands_new (follows : Follows charter post before know) {index : Nat} {label : ι}
    {request : Request} {next : request.Answer → Program ρ} {answer : request.Answer} {world : World}
    (turn : before.actors[index]? = some ⟨label, .ask request next⟩)
    (answered : World.answer request before.world = (.ok answer, world))
    (hmem : entry ∈ entries index before.world request answer) :
    Stands charter ⟨world, before.actors.set index ⟨label, next answer⟩,
      before.log ++ entries index before.world request answer⟩ entry := by
  obtain ⟨-, hpermits, -⟩ := follows.keeps index _ turn
  cases request with
  | commit ref expected commit =>
      cases answer with
      | error error => cases hmem
      | ok version =>
          obtain ⟨now, run, record, hnow, hfind, -, hlength, horigin, hwarranted, hfresh, hdistinct,
            hafter, -⟩ := (follows.knows index).commit hpermits answered
          have href : run.ref = ref :=
            (Run.ref_eq_of_origin horigin).trans (RunTable.ref_of_find? hfind)
          obtain ⟨logged, hentries, hacceptance, hclock, vouches⟩ :=
            vouches_of_commit turn answered href hlength hwarranted
          rw [hentries, List.mem_singleton] at hmem
          subst hmem
          obtain rfl : entry.now = now := Option.some.inj (hclock.symm.trans hnow)
          obtain ⟨later, rest, hlater, hevents⟩ :=
            RunTable.events_applied entry.now hfind hfresh hdistinct
          refine ⟨later, record.events, rest, ?_, ?_, vouches⟩
          · rw [hacceptance, ← hlater, hafter]
            exact congrArg (fun runs : RunTable => runs.find? ref) (Store.apply_runs _ _ _ _)
          · rw [hacceptance]
            exact hevents
  | _ => cases hmem

theorem Follows.stands (hbegins : ∀ label, (begins label).Keeps (charter label) (post label) .nothing)
    (fits : ∀ label, (charter label).Fits warrants announces) {start : World}
    (follows : Follows charter post (Scene.opening start) know)
    (reaches : Reaches begins (Scene.opening start) scene) :
    ∀ entry ∈ scene.log, Stands charter scene entry := by
  induction reaches with
  | refl => simp [Scene.opening]
  | tail earlier step ih =>
      obtain ⟨later, hlater⟩ := follows.reaches hbegins fits earlier
      intro entry hmem
      have hkept := fun hold => (ih entry hold).later fits hlater step
      cases step with
      | act turn answered =>
          rcases List.mem_append.1 hmem with hold | hnew
          · exact hkept hold
          · exact hlater.stands_new turn answered hnew
      | _ => exact hkept hmem

end Scene

end Chronicle
