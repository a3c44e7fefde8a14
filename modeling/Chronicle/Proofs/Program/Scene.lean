import Mathlib.Data.List.Induction
import Chronicle.Proofs.Program.Knowing

/-!
# Scenes

Any number of programs work on one world, and between two requests of one of them the others may
make any number of theirs.  A log keeps the commits that were accepted, in their order.
-/

namespace Chronicle

open Relation (ReflTransGen)

universe u

/-- A program that has been begun, at the point that it has come to. -/
structure Actor (ι : Type u) (ρ : Type) where
  label : ι
  rest : Program ρ

/-- A commit that was accepted, who made it, and when. -/
structure LogEntry where
  actor : Nat
  acceptance : Acceptance
  now : Instant
  deriving DecidableEq, Repr

structure Scene (ι : Type u) (ρ : Type) where
  world : World
  actors : List (Actor ι ρ)
  log : List LogEntry

namespace Scene

variable {ι : Type u} {ρ : Type}

def opening (world : World) : Scene ι ρ := ⟨world, [], []⟩

def entries (actor : Nat) (world : World) : (request : Request) → request.Answer → List LogEntry
  | .commit ref expected commit, .ok version =>
      world.now.toList.map fun now => ⟨actor, ⟨ref, expected, commit, version⟩, now⟩
  | _, _ => []

theorem entries_commit {world : World} {now : Instant} (hnow : world.now = some now) (actor : Nat)
    (ref : RunRef) (expected version : Nat) (commit : Commit) :
    entries actor world (.commit ref expected commit) (.ok version) =
      [⟨actor, ⟨ref, expected, commit, version⟩, now⟩] := by
  simp [entries, hnow]

/-- One thing that happens: an actor enters, the clock is set, or one request is answered. -/
inductive Step (begins : ι → Program ρ) : Scene ι ρ → Scene ι ρ → Prop where
  | enter {scene : Scene ι ρ} (label : ι) :
      Step begins scene { scene with actors := scene.actors ++ [⟨label, begins label⟩] }
  | tick {scene : Scene ι ρ} (now : Option Instant) :
      Step begins scene { scene with world := { scene.world with now := now } }
  | act {scene : Scene ι ρ} {index : Nat} {label : ι} {request : Request}
      {next : request.Answer → Program ρ} {answer : request.Answer} {world : World}
      (turn : scene.actors[index]? = some ⟨label, .ask request next⟩)
      (answered : World.answer request scene.world = (.ok answer, world)) :
      Step begins scene ⟨world, scene.actors.set index ⟨label, next answer⟩,
        scene.log ++ entries index scene.world request answer⟩
  /-- A request without an answer leaves the actor where it is for ever. -/
  | fall {scene : Scene ι ρ} {index : Nat} {label : ι} {request : Request}
      {next : request.Answer → Program ρ} {cause : Crash} {world : World}
      (turn : scene.actors[index]? = some ⟨label, .ask request next⟩)
      (answered : World.answer request scene.world = (.error cause, world)) :
      Step begins scene ⟨world, scene.actors.set index ⟨label, .crash cause⟩, scene.log⟩

abbrev Reaches (begins : ι → Program ρ) : Scene ι ρ → Scene ι ρ → Prop := ReflTransGen (Step begins)

theorem Reaches.act {begins : ι → Program ρ} {start scene : Scene ι ρ}
    (reaches : Reaches begins start scene) (index : Nat) {label : ι} {request : Request}
    {next : request.Answer → Program ρ} {answer : request.Answer} {world : World}
    (turn : scene.actors[index]? = some ⟨label, .ask request next⟩)
    (answered : World.answer request scene.world = (.ok answer, world)) :
    Reaches begins start ⟨world, scene.actors.set index ⟨label, next answer⟩,
      scene.log ++ entries index scene.world request answer⟩ :=
  reaches.tail (.act turn answered)

theorem Reaches.tick {begins : ι → Program ρ} {start scene : Scene ι ρ}
    (reaches : Reaches begins start scene) (now : Option Instant) :
    Reaches begins start { scene with world := { scene.world with now := now } } :=
  ReflTransGen.tail reaches (.tick now)

/-- An actor can do all its work before the next one acts. -/
theorem Reaches.run {begins : ι → Program ρ} {start scene : Scene ι ρ}
    (reaches : Reaches begins start scene) (index : Nat) {label : ι} {work : Program ρ} {value : ρ}
    (turn : scene.actors[index]? = some ⟨label, work⟩)
    (ends : (work.run World.answer scene.world).1 = .ok value) :
    ∃ log, Reaches begins start ⟨(work.run World.answer scene.world).2,
      scene.actors.set index ⟨label, .done value⟩, log⟩ := by
  induction work generalizing scene with
  | done result =>
      cases ends
      refine ⟨scene.log, ?_⟩
      obtain ⟨hlt, hturn⟩ := List.getElem?_eq_some_iff.1 turn
      have hsame := List.set_getElem_self hlt
      rw [hturn] at hsame
      rwa [hsame]
  | crash cause => cases ends
  | ask request next ih =>
      rw [Program.run] at ends ⊢
      split at ends
      · rename_i answer after answered
        have acted := reaches.act index turn answered
        have hlt := (List.getElem?_eq_some_iff.1 turn).1
        obtain ⟨log, done⟩ := ih answer acted (List.getElem?_set_self hlt) ends
        rw [List.set_set] at done
        exact ⟨log, done⟩
      · cases ends

/-- Any number of actors can enter before the first one acts. -/
theorem reaches_entered (begins : ι → Program ρ) (world : World) (labels : List ι) :
    Reaches begins (opening world)
      ⟨world, labels.map fun label => ⟨label, begins label⟩, []⟩ := by
  induction labels using List.reverseRecOn with
  | nil => exact .refl
  | append_singleton labels label ih =>
      rw [List.map_append]
      exact ih.tail (.enter label)

/-! ## Places of actors -/

section Places

variable {actors : List (Actor ι ρ)} {actor other : Actor ι ρ} {index place : Nat}

theorem actor_of_entered (h : (actors ++ [other])[index]? = some actor) :
    actors[index]? = some actor ∨ (actors.length ≤ index ∧ actor = other) := by
  rcases Nat.lt_or_ge index actors.length with hold | hnew
  · exact .inl (List.getElem?_append_left hold ▸ h)
  · rw [List.getElem?_append_right hnew] at h
    exact .inr ⟨hnew, List.mem_singleton.1 (List.mem_of_getElem? h)⟩

theorem actor_of_moved (h : (actors.set place other)[index]? = some actor) :
    (index = place ∧ actor = other) ∨ (index ≠ place ∧ actors[index]? = some actor) := by
  rcases eq_or_ne index place with rfl | hne
  · have hlt := (List.getElem?_eq_some_iff.1 h).1
    rw [List.length_set] at hlt
    rw [List.getElem?_set_self hlt, Option.some.injEq] at h
    exact .inl ⟨rfl, h.symm⟩
  · exact .inr ⟨hne, List.getElem?_set_ne hne.symm ▸ h⟩

end Places

/-! ## Soundness -/

def accepted (scene : Scene ι ρ) (actor : Nat) : List Acceptance :=
  (scene.log.filter fun entry => entry.actor = actor).map LogEntry.acceptance

/-- Every actor keeps its charter with what it knows, and what it knows is true. -/
structure Follows (charter : ι → Charter) (post : ι → ρ → Knowledge → Prop) (scene : Scene ι ρ)
    (know : Nat → Knowledge) : Prop where
  supplied : scene.world.Supplied
  keeps : ∀ index (actor : Actor ι ρ), scene.actors[index]? = some actor →
    actor.rest.Keeps (charter actor.label) (post actor.label) (know index)
  knows : ∀ index, Knows scene.world (know index)
  disjoint : ∀ first second, first ≠ second → ∀ runId ∈ (know first).drawn,
    runId ∉ (know second).drawn
  accepted : ∀ index, scene.accepted index = (know index).accepted
  unknown : ∀ index, scene.actors.length ≤ index → know index = .nothing

variable {begins : ι → Program ρ} {charter : ι → Charter} {post : ι → ρ → Knowledge → Prop}

theorem Follows.opening {world : World} (hsupplied : world.Supplied) :
    Follows charter post (opening world) fun _ => .nothing where
  supplied := hsupplied
  keeps := by simp [Scene.opening]
  knows := fun _ => .nothing world
  disjoint := by simp [Knowledge.nothing]
  accepted := fun _ => rfl
  unknown := fun _ _ => rfl

theorem Follows.enter {scene : Scene ι ρ} {know : Nat → Knowledge}
    (follows : Follows charter post scene know) {label : ι}
    (hbegins : (begins label).Keeps (charter label) (post label) .nothing) :
    Follows charter post { scene with actors := scene.actors ++ [⟨label, begins label⟩] } know where
  supplied := follows.supplied
  keeps := by
    intro index actor hget
    rcases actor_of_entered hget with hold | ⟨hnew, rfl⟩
    · exact follows.keeps index actor hold
    · rw [follows.unknown index hnew]
      exact hbegins
  knows := follows.knows
  disjoint := follows.disjoint
  accepted := follows.accepted
  unknown := by
    intro index hindex
    simp only [List.length_append, List.length_singleton] at hindex
    exact follows.unknown index (by omega)

theorem Follows.tick {scene : Scene ι ρ} {know : Nat → Knowledge}
    (follows : Follows charter post scene know) (now : Option Instant) :
    Follows charter post { scene with world := { scene.world with now := now } } know where
  supplied := follows.supplied
  keeps := follows.keeps
  knows := fun index =>
    have hknows := follows.knows index
    ⟨hknows.drawn, hknows.unused, hknows.distinct, hknows.run, hknows.history⟩
  disjoint := follows.disjoint
  accepted := follows.accepted
  unknown := follows.unknown

theorem accepted_append (scene : Scene ι ρ) (world : World) (actors : List (Actor ι ρ))
    (added : List LogEntry) (index : Nat) :
    accepted ⟨world, actors, scene.log ++ added⟩ index =
      scene.accepted index ++
        (added.filter fun entry => entry.actor = index).map LogEntry.acceptance := by
  simp [accepted, List.filter_append]

/-- The log tells what the actor has been told about its commits. -/
theorem accepted_entries {request : Request} {answer : request.Answer} {before after : World}
    (answered : World.answer request before = (.ok answer, after)) (actor : Nat)
    (known : Knowledge) :
    (known.learn request answer).accepted =
      known.accepted ++ (entries actor before request answer).map LogEntry.acceptance := by
  cases request with
  | commit ref expected commit =>
      cases answer with
      | error error => exact (List.append_nil _).symm
      | ok version =>
          obtain ⟨now, hnow, -⟩ := World.timed_eq_ok answered
          rw [entries_commit hnow]
          rfl
  | createRun new => cases answer <;> exact (List.append_nil _).symm
  | getRun ref => cases answer <;> exact (List.append_nil _).symm
  | readEvents ref skipped => cases skipped <;> cases answer <;> exact (List.append_nil _).symm
  | _ => exact (List.append_nil _).symm

theorem actor_of_mem_entries {request : Request} {answer : request.Answer} {world : World}
    {actor : Nat} {entry : LogEntry} (h : entry ∈ entries actor world request answer) :
    entry.actor = actor := by
  unfold entries at h
  split at h
  · obtain ⟨now, -, heq⟩ := List.mem_map.1 h
    rw [← heq]
  · cases h

theorem filter_entries_self (actor : Nat) (world : World) (request : Request) (answer : request.Answer) :
    (entries actor world request answer).filter (fun entry => entry.actor = actor) =
      entries actor world request answer := by
  rw [List.filter_eq_self]
  intro entry hmem
  simpa using actor_of_mem_entries hmem

theorem filter_entries_other {actor other : Nat} (hne : other ≠ actor) (world : World) (request : Request)
    (answer : request.Answer) :
    (entries actor world request answer).filter (fun entry => entry.actor = other) = [] := by
  rw [List.filter_eq_nil_iff]
  intro entry hmem
  rw [actor_of_mem_entries hmem]
  simpa using hne.symm

variable {warrants : RunRecord → Commit → Prop} {announces : Event → Prop}

theorem Follows.act {scene : Scene ι ρ} {know : Nat → Knowledge}
    (follows : Follows charter post scene know) {index : Nat} {label : ι} {request : Request}
    {next : request.Answer → Program ρ} {answer : request.Answer} {world : World}
    (fits : (charter label).Fits warrants announces)
    (turn : scene.actors[index]? = some ⟨label, .ask request next⟩)
    (answered : World.answer request scene.world = (.ok answer, world)) :
    Follows charter post
      ⟨world, scene.actors.set index ⟨label, next answer⟩,
        scene.log ++ entries index scene.world request answer⟩
      (fun other => if other = index then (know index).learn request answer else know other) := by
  obtain ⟨-, hpermits, hnext⟩ := follows.keeps index _ turn
  obtain ⟨hcredible, change, hmine⟩ :=
    (follows.knows index).answered fits follows.supplied hpermits answered
  have hother : ∀ other, other ≠ index → Knows world (know other) := by
    intro other hne
    exact (follows.knows other).later change (follows.disjoint other index hne)
  have happart : ∀ other, other ≠ index → ∀ runId ∈ (know other).drawn,
      runId ∉ ((know index).learn request answer).drawn := by
    intro other hne
    exact change.disjoint (follows.knows other) (follows.disjoint other index hne)
  constructor
  case supplied => exact change.supplied (follows.knows index) follows.supplied
  case keeps =>
    intro other actor hget
    simp only at hget ⊢
    rcases actor_of_moved hget with ⟨rfl, rfl⟩ | ⟨hne, hold⟩
    · rw [if_pos rfl]
      exact hnext answer hcredible
    · rw [if_neg hne]
      exact follows.keeps other actor hold
  case knows =>
    intro other
    split
    · exact hmine
    · rename_i hne
      exact hother other hne
  case disjoint =>
    -- only the ids of the actor itself can have changed, by the one that was drawn
    intro first second hne runId hmem
    split at hmem
    · rename_i hfirst
      rw [if_neg fun hsecond => hne (hfirst.trans hsecond.symm)]
      intro htheirs
      exact happart second (fun hsecond => hne (hfirst.trans hsecond.symm)) runId htheirs hmem
    · rename_i hfirst
      split
      · exact happart first hfirst runId hmem
      · exact follows.disjoint first second hne runId hmem
  case accepted =>
    intro other
    rw [accepted_append, follows.accepted]
    split
    · rename_i hsame
      subst hsame
      rw [filter_entries_self, accepted_entries answered other]
    · rename_i hne
      rw [filter_entries_other hne, List.map_nil, List.append_nil]
  case unknown =>
    intro other hlength
    rw [List.length_set] at hlength
    have hlt := (List.getElem?_eq_some_iff.1 turn).1
    rw [if_neg (by omega)]
    exact follows.unknown other hlength

theorem Follows.fall {scene : Scene ι ρ} {know : Nat → Knowledge}
    (follows : Follows charter post scene know) {index : Nat} {label : ι} {request : Request}
    {next : request.Answer → Program ρ} {cause : Crash} {world : World}
    (turn : scene.actors[index]? = some ⟨label, .ask request next⟩)
    (answered : World.answer request scene.world = (.error cause, world)) :
    Follows charter post ⟨world, scene.actors.set index ⟨label, .crash cause⟩, scene.log⟩ know := by
  obtain ⟨hundecided, -, -⟩ := follows.keeps index _ turn
  have hworld := World.answer_eq_error answered
  subst hworld
  refine ⟨follows.supplied, ?_, follows.knows, follows.disjoint, follows.accepted, ?_⟩
  · intro other actor hget
    rcases actor_of_moved hget with ⟨rfl, rfl⟩ | ⟨-, hold⟩
    · exact hundecided
    · exact follows.keeps other actor hold
  · intro other hlength
    rw [List.length_set] at hlength
    exact follows.unknown other hlength

/-- What the actors know can be followed through every step. -/
theorem Follows.step {before after : Scene ι ρ} {know : Nat → Knowledge}
    (hbegins : ∀ label, (begins label).Keeps (charter label) (post label) .nothing)
    (fits : ∀ label, (charter label).Fits warrants announces)
    (follows : Follows charter post before know) (step : Step begins before after) :
    ∃ later, Follows charter post after later := by
  cases step with
  | enter label => exact ⟨know, follows.enter (hbegins label)⟩
  | tick now => exact ⟨know, follows.tick now⟩
  | @act index label request next answer world turn answered =>
      exact ⟨_, follows.act (fits label) turn answered⟩
  | fall turn answered => exact ⟨know, follows.fall turn answered⟩

theorem Follows.reaches {before after : Scene ι ρ} {know : Nat → Knowledge}
    (hbegins : ∀ label, (begins label).Keeps (charter label) (post label) .nothing)
    (fits : ∀ label, (charter label).Fits warrants announces)
    (follows : Follows charter post before know) (reaches : Reaches begins before after) :
    ∃ later, Follows charter post after later := by
  induction reaches with
  | refl => exact ⟨know, follows⟩
  | tail _ step ih =>
      obtain ⟨middle, hmiddle⟩ := ih
      exact hmiddle.step hbegins fits step

theorem Follows.table {before after : Scene ι ρ} {know : Nat → Knowledge}
    (fits : ∀ label, (charter label).Fits warrants announces)
    (follows : Follows charter post before know) (step : Step begins before after) :
    ReflTransGen (RunTable.Step warrants announces) before.world.store.runs
      after.world.store.runs := by
  cases step with
  | enter label => exact .refl
  | tick now => exact .refl
  | @act index label request next answer world turn answered =>
      obtain ⟨-, hpermits, -⟩ := follows.keeps index _ turn
      obtain ⟨-, change, -⟩ :=
        (follows.knows index).answered (fits label) follows.supplied hpermits answered
      exact change.steps
  | fall turn answered =>
      rw [World.answer_eq_error answered]

theorem Follows.tables {before after : Scene ι ρ} {know : Nat → Knowledge}
    (hbegins : ∀ label, (begins label).Keeps (charter label) (post label) .nothing)
    (fits : ∀ label, (charter label).Fits warrants announces)
    (follows : Follows charter post before know) (reaches : Reaches begins before after) :
    ReflTransGen (RunTable.Step warrants announces) before.world.store.runs
      after.world.store.runs := by
  induction reaches with
  | refl => exact .refl
  | tail earlier step ih =>
      obtain ⟨later, hlater⟩ := follows.reaches hbegins fits earlier
      exact ih.trans (hlater.table fits step)

end Scene

end Chronicle
