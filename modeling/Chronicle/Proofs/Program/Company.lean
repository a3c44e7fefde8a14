import Chronicle.Proofs.Engine.HistoryLog
import Chronicle.Proofs.Program.Playing

/-!
# Actors that play by the rules

On a store that is shared by actors who all play by the rules, everything that happens is a move,
and every actor can go on whatever the others do in between.
-/

namespace Chronicle

open Relation (ReflTransGen)

universe u

namespace Charter

/-- New runs have ids that were drawn for them, and a commit continues the history that was read. -/
def permissive : Charter := ⟨fun _ => True, fun _ _ _ => True, fun _ => True⟩

theorem permissive_fits : permissive.Fits (fun _ _ => True) fun _ => True :=
  ⟨fun _ _ _ _ _ => trivial, fun _ _ _ _ _ _ => trivial⟩

end Charter

theorem Program.Keeps.permissive {α : Type} {charter : Charter} {post : α → Knowledge → Prop}
    {program : Program α} {knowledge : Knowledge} (keeps : program.Keeps charter post knowledge) :
    program.Keeps .permissive post knowledge := by
  induction program generalizing knowledge with
  | done value => exact keeps
  | crash cause => trivial
  | ask request next ih =>
      obtain ⟨-, hpermits, hnext⟩ := keeps
      refine ⟨trivial, ?_, fun answer hcredible => ih answer (hnext answer hcredible)⟩
      cases request with
      | createRun new => exact ⟨trivial, hpermits.2⟩
      | commit ref expected commit =>
          obtain ⟨run, history, hrun, href, hhistory, hlength, -, hids⟩ := hpermits
          exact ⟨run, history, hrun, href, hhistory, hlength, trivial, hids⟩
      | _ => trivial

theorem Knows.beginsNew {world after : World} {knowledge : Knowledge} {request : Request}
    {answer : request.Answer} (knows : Knows world knowledge)
    (hpermits : Charter.permissive.permits knowledge request)
    (answered : World.answer request world = (.ok answer, after)) :
    request.BeginsNew world.store answer := by
  cases request with
  | createRun new =>
      cases answer with
      | error error => trivial
      | ok created => exact RunTable.find?_of_not_uses (knows.unused _ hpermits.2)
  | commit ref expected commit =>
      cases answer with
      | error error => trivial
      | ok version =>
          obtain ⟨-, -, -, -, -, -, -, -, -, hfresh, hdistinct, -⟩ := knows.commit hpermits answered
          exact ⟨hfresh, hdistinct⟩
  | _ => trivial

namespace Scene

variable {ι : Type u} {ρ : Type} {rules : Rules} {fires : Prop}

/-- What actors know of the runs is true. -/
abbrev Follows.Permissive (scene : Scene ι ρ) (know : Nat → Knowledge) : Prop :=
  Follows (fun _ => .permissive) (fun _ _ _ => True) scene know

/-- All actors play by the rules, on a sane store. -/
structure Plays (rules : Rules) (fires : Prop) (scene : Scene ι ρ) : Prop where
  sane : Sane rules scene.world.store
  actors : ∀ actor ∈ scene.actors, actor.rest.Plays rules fires (fun _ _ => True) scene.world.store

variable {begins : ι → Program ρ}

theorem Plays.opening {world : World} (sane : Sane rules world.store) :
    (opening world : Scene ι ρ).Plays rules fires :=
  ⟨sane, by simp [Scene.opening]⟩

/-- What happens in a scene is a series of moves, after which all actors still play by the rules. -/
theorem Plays.step {before after : Scene ι ρ} {know : Nat → Knowledge} (lawful : rules.Lawful)
    (hplays : ∀ label, (begins label).PlaysAnywhere rules fires)
    (follows : Follows.Permissive before know) (plays : before.Plays rules fires)
    (step : Step begins before after) :
    ReflTransGen (Move rules fires) before.world.store after.world.store ∧
      after.Plays rules fires := by
  cases step with
  | enter label =>
      refine ⟨.refl, plays.sane, ?_⟩
      intro actor hmem
      rcases List.mem_append.1 hmem with hold | hnew
      · exact plays.actors actor hold
      · rw [List.mem_singleton.1 hnew]
        exact hplays label _
  | tick now => exact ⟨.refl, plays.sane, plays.actors⟩
  | @act index label request next answer world turn answered =>
      obtain ⟨-, hpermits, -⟩ := follows.keeps index _ turn
      have fresh := (follows.knows index).beginsNew hpermits answered
      obtain ⟨admits, hnext⟩ :=
        plays.actors _ (List.mem_of_getElem? turn) before.world .refl plays.sane
      have moves := World.moves_of_answer admits fresh answered
      have leads : Leads rules before.world.store world.store :=
        moves.lift id fun _ _ move => move.mono fun _ => trivial
      refine ⟨moves, plays.sane.leads lawful leads, ?_⟩
      intro actor hmem
      rcases List.mem_or_eq_of_mem_set hmem with hother | hself
      · exact (plays.actors actor hother).later leads
      · rw [hself]
        exact hnext answer world answered fresh
  | @fall index label request next cause world turn answered =>
      have hworld := World.answer_eq_error answered
      subst hworld
      refine ⟨.refl, plays.sane, ?_⟩
      intro actor hmem
      rcases List.mem_or_eq_of_mem_set hmem with hother | hself
      · exact plays.actors actor hother
      · rw [hself]
        trivial

theorem Plays.reaches {before after : Scene ι ρ} {know : Nat → Knowledge} (lawful : rules.Lawful)
    (hobeys : ∀ label, (begins label).Obeys .permissive)
    (hplays : ∀ label, (begins label).PlaysAnywhere rules fires)
    (follows : Follows.Permissive before know) (plays : before.Plays rules fires)
    (reaches : Reaches begins before after) :
    ReflTransGen (Move rules fires) before.world.store after.world.store ∧
      after.Plays rules fires := by
  have hkeeps : ∀ label, (begins label).Keeps .permissive (fun _ _ => True) .nothing :=
    fun label => hobeys label .nothing
  induction reaches with
  | refl => exact ⟨.refl, plays⟩
  | tail earlier step ih =>
      obtain ⟨moves, played⟩ := ih
      obtain ⟨later, hlater⟩ := follows.reaches hkeeps (fun _ => Charter.permissive_fits) earlier
      obtain ⟨more, stepped⟩ := played.step lawful hplays hlater step
      exact ⟨moves.trans more, stepped⟩

end Scene

theorem Sane.empty (rules : Rules) : Sane rules .empty where
  tasks :=
    { issued := fun _ hmem => nomatch hmem
      distinct := List.nodup_nil
      granted := fun _ hmem => nomatch hmem
      single := fun _ => Nat.zero_le _ }
  provided := fun _ hmem => nomatch hmem
  keeps := fun _ _ hfind => nomatch hfind

section

variable {ι : Type u} {ρ : Type} {rules : Rules} {fires : Prop} {begins : ι → Program ρ}
  {start : World} {scene : Scene ι ρ}

/-- Everything that becomes of an empty store becomes of it by moves, and the actors who make them
know what is true, and play by the rules. -/
theorem Scene.plays_of_empty (lawful : rules.Lawful)
    (hobeys : ∀ label, (begins label).Obeys .permissive)
    (hplays : ∀ label, (begins label).PlaysAnywhere rules fires) (hempty : start.store = .empty)
    (reaches : Reaches begins (.opening start) scene) :
    (∃ know, Follows.Permissive scene know) ∧
      ReflTransGen (Move rules fires) .empty scene.world.store ∧ scene.Plays rules fires := by
  have blank : start.IsBlank := by rw [World.IsBlank, hempty]; rfl
  have follows : Follows.Permissive (.opening start : Scene ι ρ) fun _ => .nothing :=
    .opening blank.supplied
  have sane : Sane rules start.store := hempty ▸ Sane.empty rules
  obtain ⟨moves, plays⟩ :=
    (@Plays.opening ι ρ rules fires start sane).reaches lawful hobeys hplays follows reaches
  exact ⟨follows.reaches (fun label => hobeys label .nothing) (fun _ => Charter.permissive_fits)
    reaches, hempty ▸ moves, plays⟩

theorem Scene.moves_of_empty (lawful : rules.Lawful)
    (hobeys : ∀ label, (begins label).Obeys .permissive)
    (hplays : ∀ label, (begins label).PlaysAnywhere rules fires) (hempty : start.store = .empty)
    (reaches : Reaches begins (.opening start) scene) :
    ReflTransGen (Move rules fires) .empty scene.world.store ∧ Sane rules scene.world.store := by
  obtain ⟨-, moves, plays⟩ := plays_of_empty lawful hobeys hplays hempty reaches
  exact ⟨moves, plays.sane⟩

end

end Chronicle
