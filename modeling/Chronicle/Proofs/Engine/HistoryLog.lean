import Chronicle.Proofs.Engine.Operations
import Chronicle.Proofs.Program.Scene
import Chronicle.Proofs.Store.Histories
import Chronicle.Samples.Workflows

/-!
# The log of a run

Operations of all kinds run side by side on a store that was empty at first.  Every history that
they leave is in order: it is numbered without gaps, starts once, and closes at most once, with its
last event, just as the run says that it has ended.  From then on nothing changes it.
-/

namespace Chronicle

open Relation (ReflTransGen)

def World.IsBlank (world : World) : Prop := world.store.runs = .empty

theorem World.IsBlank.supplied {world : World} (blank : world.IsBlank) : world.Supplied := by
  intro number _ huses
  obtain ⟨ref, record, hfind, -⟩ := huses
  rw [blank] at hfind
  cases hfind

namespace Operation

theorem charter_fits (operation : Operation) :
    operation.charter.Fits (fun _ commit => commit.Tidy) fun event => event.isAnnouncement = true where
  warrants := fun _ _ _ _ warranted => Warrants.tidy warranted
  announces := fun _ _ _ warranted => (Warrants.tidy warranted).announced

/-- Histories are in order, they are only added to, and a closed run stays as it is. -/
theorem histories_inOrder {start : World} (blank : start.IsBlank) {scene : Scene Operation Unit}
    (reaches : Scene.Reaches program (.opening start) scene) :
    scene.world.store.runs.WellFormed ∧
      ∀ later, Scene.Reaches program scene later →
        ∀ ref record, scene.world.store.runs.find? ref = some record →
          ∃ next, later.world.store.runs.find? ref = some next ∧ record.Continues next := by
  have hkeeps : ∀ operation : Operation,
      operation.program.Keeps operation.charter (fun _ _ => True) .nothing :=
    fun operation => operation.program_obeys .nothing
  have opening : Scene.Follows charter (fun _ _ _ => True) (.opening start : Scene Operation Unit)
      fun _ => .nothing := .opening blank.supplied
  constructor
  · have hsteps := opening.tables hkeeps charter_fits reaches
    apply RunTable.WellFormed.steps _ (fun _ _ htidy => htidy) (fun _ hannounced => hannounced) hsteps
    rw [Scene.opening, blank]
    exact .empty
  · intro later hlater ref record hfind
    obtain ⟨know, follows⟩ := opening.reaches hkeeps charter_fits reaches
    have hsteps := follows.tables hkeeps charter_fits hlater
    exact RunTable.continues_of_steps hsteps hfind

def blankWorld : World := ⟨.empty, some ⟨0, 0⟩, 0⟩

def sampleEngine : Engine := ⟨⟨[Samples.bare]⟩, .standard⟩

def sampleRun : RunRef := ⟨"orders", World.runId 0⟩

/-- A run is started and terminated, and then signalled in vain. -/
theorem terminated_inOrder :
    ∃ scene, Scene.Reaches program (.opening blankWorld) scene ∧
      (∃ record, scene.world.store.runs.find? sampleRun = some record ∧ record.isClosed = true) ∧
      scene.world.store.runs.WellFormed ∧
      ∀ later, Scene.Reaches program scene later →
        ∀ ref record, scene.world.store.runs.find? ref = some record →
          ∃ next, later.world.store.runs.find? ref = some next ∧ record.Continues next := by
  have blank : blankWorld.IsBlank := rfl
  have entered : Scene.Reaches program (.opening blankWorld)
      ⟨blankWorld,
        [⟨_, program (.start (.first sampleRun "bare" "default" .null .standard))⟩,
          ⟨_, program (.terminate sampleEngine sampleRun "done")⟩,
          ⟨_, program (.signal sampleEngine sampleRun ⟨"go", .null, ⟨0, 0⟩⟩)⟩], []⟩ :=
    ((ReflTransGen.single (.enter _)).tail (.enter _)).tail (.enter _)
  have started := (entered.act 0 rfl rfl).act 0 rfl rfl
  have terminated := ((started.act 1 rfl rfl).act 1 rfl rfl).act 1 rfl rfl
  have signalled := terminated.act 2 rfl rfl
  exact ⟨_, signalled, ⟨_, rfl, rfl⟩, histories_inOrder blank signalled⟩

end Operation

end Chronicle
