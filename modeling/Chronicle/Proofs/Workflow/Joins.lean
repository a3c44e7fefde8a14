import Chronicle.Proofs.Cron.Grammar
import Chronicle.Proofs.Json.Records
import Chronicle.Workflow.FanIn
import Mathlib.Data.List.Induction
import Mathlib.Data.List.Nodup
import Mathlib.Data.List.TakeWhile

/-!
# Joins

A fan-in is used by adding ids and by recording results, in any order.  What it hands out in the end
depends on the order in which the ids were first added, and on the first result that was recorded for
each of them after that; in which order the results came in makes no difference.
-/

namespace Chronicle

namespace FanIn

inductive Act where
  | add (id : String)
  | record (id : String) (result : Json)
  deriving DecidableEq, Repr

def act (fanIn : FanIn) : Act → FanIn
  | .add id => fanIn.add id
  | .record id result => fanIn.record id result

/-- The fan-in after some acts. -/
def after (acts : List Act) : FanIn := acts.foldl act empty

/-! ## What the acts say -/

namespace Act

def added? : Act → Option String
  | .add id => some id
  | .record _ _ => none

def resultFor? (id : String) : Act → Option Json
  | .add _ => none
  | .record other result => if other = id then some result else none

end Act

/-- The ids in the order in which they were first added. -/
def added (acts : List Act) : List String := (acts.filterMap Act.added?).eraseDups

/-- The first result that is recorded for an id after the id was added. -/
def firstResult? (id : String) (acts : List Act) : Option Json :=
  (acts.dropWhile fun act => act ≠ .add id).findSome? (Act.resultFor? id)

theorem mem_added {acts : List Act} {id : String} : id ∈ added acts ↔ .add id ∈ acts := by
  unfold added
  rw [List.mem_eraseDups, List.mem_filterMap]
  constructor
  · rintro ⟨act, hmem, hadded⟩
    cases act with
    | add other =>
        cases hadded
        exact hmem
    | record other result => cases hadded
  · exact fun hmem => ⟨_, hmem, rfl⟩

theorem added_concat_add (acts : List Act) (id : String) :
    added (acts ++ [.add id]) = if id ∈ added acts then added acts else added acts ++ [id] := by
  have hnew : [Act.add id].filterMap Act.added? = [id] := rfl
  have hsplit : added (acts ++ [.add id]) =
      added acts ++ ([id].removeAll (acts.filterMap Act.added?)).eraseDups := by
    rw [added, List.filterMap_append, hnew, List.eraseDups_append]
    rfl
  rw [hsplit, List.removeAll, List.filter_cons, List.filter_nil, List.elem_eq_mem]
  by_cases h : id ∈ acts.filterMap Act.added?
  · have hmem : id ∈ added acts := List.mem_eraseDups.2 h
    rw [if_pos hmem, decide_eq_true h, Bool.not_true, if_neg Bool.false_ne_true]
    exact List.append_nil _
  · have hother : id ∉ added acts := mt List.mem_eraseDups.1 h
    rw [if_neg hother, decide_eq_false h, Bool.not_false, if_pos rfl]
    rfl

theorem added_concat_record (acts : List Act) (id : String) (result : Json) :
    added (acts ++ [.record id result]) = added acts := by
  have hnew : [Act.record id result].filterMap Act.added? = [] := rfl
  rw [added, List.filterMap_append, hnew, List.append_nil]
  rfl

/-- Before an id is added nothing counts, and from then on everything does. -/
theorem firstResult?_concat (acts : List Act) (act : Act) (id : String) :
    firstResult? id (acts ++ [act]) =
      (firstResult? id acts).or (if id ∈ added acts then act.resultFor? id else none) := by
  have hempty : (acts.dropWhile fun act => act ≠ .add id) = [] ↔ id ∉ added acts := by
    rw [List.dropWhile_eq_nil_iff, mem_added]
    constructor
    · intro hall hmem
      simpa using hall _ hmem
    · intro hnone act hmem
      exact decide_eq_true fun heq => hnone (heq ▸ hmem)
  unfold firstResult?
  rw [List.dropWhile_append]
  by_cases hadded : id ∈ added acts
  · have hsome : (acts.dropWhile fun act => act ≠ .add id) ≠ [] :=
      fun hnil => hempty.1 hnil hadded
    rw [if_neg (by simpa using hsome), List.findSome?_append, if_pos hadded,
      List.findSome?_singleton]
  · have hnil := hempty.2 hadded
    rw [if_neg hadded, Option.or_none, hnil, List.isEmpty_nil, if_pos rfl]
    cases act with
    | add other => by_cases h : other = id <;> simp [h, Act.resultFor?]
    | record other result => simp

theorem mem_added_of_firstResult? {acts : List Act} {id : String}
    (h : (firstResult? id acts).isSome = true) : id ∈ added acts := by
  induction acts using List.reverseRecOn with
  | nil => cases h
  | append_singleton acts act ih =>
      have hgrows : id ∈ added acts → id ∈ added (acts ++ [act]) := by
        simp only [mem_added, List.mem_append]
        exact .inl
      rw [firstResult?_concat] at h
      by_cases hadded : id ∈ added acts
      · exact hgrows hadded
      · rw [if_neg hadded, Option.or_none] at h
        exact hgrows (ih h)

/-! ## What the fan-in keeps -/

/-- The fan-in keeps just what the acts say. -/
structure Keeps (acts : List Act) (fanIn : FanIn) : Prop where
  order : fanIn.order = added acts
  distinct : fanIn.order.Nodup
  results : ∀ id, fanIn.results.lookup id = firstResult? id acts
  keys : (fanIn.results.map Prod.fst).Nodup

theorem keys_insertField {id : String} {fields : List (String × Json)} (result : Json)
    (h : fields.lookup id = none) :
    ((Json.insertField id result fields).map Prod.fst).Perm (id :: fields.map Prod.fst) := by
  induction fields with
  | nil => exact .refl _
  | cons field rest ih =>
      obtain ⟨other, existing⟩ := field
      rw [Json.lookup_cons_eq_ite] at h
      have hother : id ≠ other := by
        rintro rfl
        simp at h
      rw [if_neg hother] at h
      unfold Json.insertField
      split
      · exact .refl _
      · exact ((ih h).cons other).trans (.swap _ _ _)

theorem mem_keys_iff {fields : List (String × Json)} {id : String} :
    id ∈ fields.map Prod.fst ↔ (fields.lookup id).isSome = true := by
  rw [List.lookup_isSome_iff, List.mem_map]
  exact exists_congr fun field => and_congr_right fun _ => by rw [beq_iff_eq, eq_comm]

namespace Keeps

variable {acts : List Act} {fanIn : FanIn}

theorem contains (keeps : Keeps acts fanIn) (id : String) :
    fanIn.contains id = true ↔ id ∈ added acts := by
  rw [FanIn.contains, List.contains_iff_mem, keeps.order]

theorem accepts (keeps : Keeps acts fanIn) (id : String) :
    fanIn.accepts id = true ↔ id ∈ added acts ∧ firstResult? id acts = none := by
  rw [FanIn.accepts, Bool.and_eq_true, keeps.contains, keeps.results, Option.isNone_iff_eq_none]

theorem add (keeps : Keeps acts fanIn) (id : String) :
    Keeps (acts ++ [.add id]) (fanIn.add id) := by
  have hresults : ∀ other, fanIn.results.lookup other = firstResult? other (acts ++ [.add id]) := by
    intro other
    rw [firstResult?_concat, Act.resultFor?, ite_self, Option.or_none, keeps.results]
  unfold FanIn.add
  by_cases hadded : id ∈ added acts
  · rw [if_pos ((keeps.contains id).2 hadded)]
    refine ⟨?_, keeps.distinct, hresults, keeps.keys⟩
    rw [added_concat_add, if_pos hadded, keeps.order]
  · rw [if_neg (mt (keeps.contains id).1 hadded)]
    refine ⟨?_, ?_, hresults, keeps.keys⟩
    · rw [added_concat_add, if_neg hadded, keeps.order]
    · have hnew : id ∉ fanIn.order := keeps.order ▸ hadded
      exact List.nodup_append_comm.1 (List.nodup_cons.2 ⟨hnew, keeps.distinct⟩)

theorem record (keeps : Keeps acts fanIn) (id : String) (result : Json) :
    Keeps (acts ++ [.record id result]) (fanIn.record id result) := by
  unfold FanIn.record
  by_cases haccepted : fanIn.accepts id = true
  · obtain ⟨hadded, hnone⟩ := (keeps.accepts id).1 haccepted
    have hlookup : fanIn.results.lookup id = none := (keeps.results id).trans hnone
    rw [if_pos haccepted]
    refine ⟨?_, keeps.distinct, fun other => ?_, ?_⟩
    · rw [added_concat_record, keeps.order]
    · rw [Json.lookup_insertField, firstResult?_concat, keeps.results, Act.resultFor?]
      by_cases hother : other = id
      · subst hother
        simp [hadded, hnone]
      · simp [hother, Ne.symm hother]
    · rw [(keys_insertField result hlookup).nodup_iff, List.nodup_cons, mem_keys_iff, hlookup]
      exact ⟨by simp, keeps.keys⟩
  · rw [if_neg haccepted]
    refine ⟨?_, keeps.distinct, fun other => ?_, keeps.keys⟩
    · rw [added_concat_record, keeps.order]
    · -- an id that was not added, or one that has its result
      rw [keeps.results, firstResult?_concat, Act.resultFor?]
      have hrefused := mt (keeps.accepts id).2 haccepted
      by_cases hother : id = other
      · subst hother
        by_cases hadded : id ∈ added acts
        · cases hfirst : firstResult? id acts with
          | none => exact absurd ⟨hadded, hfirst⟩ hrefused
          | some first => rfl
        · rw [if_neg hadded, Option.or_none]
      · simp [hother]

end Keeps

theorem keeps_after (acts : List Act) : Keeps acts (after acts) := by
  induction acts using List.reverseRecOn with
  | nil => exact ⟨rfl, List.nodup_nil, fun _ => rfl, List.nodup_nil⟩
  | append_singleton acts act ih =>
      rw [after, List.foldl_append]
      cases act with
      | add id => exact ih.add id
      | record id result => exact ih.record id result

/-! ## What is handed out -/

theorem exists_results_iff {ids : List String} {result? : String → Option Json} :
    (∃ results : List Json, ids.map result? = results.map some) ↔ ∀ id ∈ ids, (result? id).isSome = true := by
  constructor
  · rintro ⟨results, hresults⟩ id hmem
    have hmapped := List.mem_map_of_mem (f := result?) hmem
    rw [hresults, List.mem_map] at hmapped
    obtain ⟨result, -, hresult⟩ := hmapped
    rw [← hresult]
    rfl
  · intro hall
    refine ⟨ids.map fun id => (result? id).getD .null, ?_⟩
    rw [List.map_map]
    refine List.map_congr_left fun id hmem => ?_
    exact (Option.getD_of_ne_none (Option.isSome_iff_ne_none.1 (hall id hmem)) _).symm

namespace Keeps

variable {acts : List Act} {fanIn : FanIn}

/-- The ids with a result are those that were added and have one by the acts. -/
theorem keys_perm (keeps : Keeps acts fanIn) :
    (fanIn.results.map Prod.fst).Perm
      ((added acts).filter fun id => (firstResult? id acts).isSome) := by
  rw [List.perm_ext_iff_of_nodup keeps.keys ((keeps.order ▸ keeps.distinct).filter _)]
  intro id
  rw [mem_keys_iff, keeps.results, List.mem_filter]
  exact ⟨fun h => ⟨mem_added_of_firstResult? h, h⟩, fun h => h.2⟩

theorem length_eq (keeps : Keeps acts fanIn) :
    fanIn.order.length = fanIn.results.length +
      ((added acts).filter fun id => (firstResult? id acts).isNone).length := by
  have hresults := keeps.keys_perm.length_eq
  have hall := List.length_eq_length_filter_add (l := added acts)
    fun id => (firstResult? id acts).isSome
  rw [List.length_map] at hresults
  simpa [keeps.order, hresults] using hall

theorem remaining (keeps : Keeps acts fanIn) :
    fanIn.remaining = ((added acts).filter fun id => (firstResult? id acts).isNone).length := by
  rw [FanIn.remaining, keeps.length_eq, Nat.add_sub_cancel_left]

theorem isComplete (keeps : Keeps acts fanIn) :
    fanIn.isComplete = true ↔ ∀ id ∈ added acts, (firstResult? id acts).isSome = true := by
  rw [FanIn.isComplete, decide_eq_true_iff, keeps.remaining, List.length_eq_zero_iff,
    List.filter_eq_nil_iff]
  exact forall₂_congr fun id _ => by cases firstResult? id acts <;> simp

theorem collect? (keeps : Keeps acts fanIn) (results : List Json) :
    fanIn.collect? = some results ↔
      (added acts).map (fun id => firstResult? id acts) = results.map some := by
  unfold FanIn.collect?
  by_cases hcomplete : fanIn.isComplete = true
  · rw [if_pos hcomplete, CronParser.mapM_eq_some, keeps.order, ← List.forall₂_eq_eq_eq,
      List.forall₂_map_left_iff, List.forall₂_map_right_iff]
    simp only [keeps.results]
  · rw [if_neg hcomplete]
    refine ⟨nofun, fun h => absurd (keeps.isComplete.2 ?_) hcomplete⟩
    exact exists_results_iff.1 ⟨results, h⟩

theorem isSome_collect? (keeps : Keeps acts fanIn) :
    fanIn.collect?.isSome = true ↔ ∀ id ∈ added acts, (firstResult? id acts).isSome = true := by
  rw [Option.isSome_iff_exists, ← exists_results_iff]
  exact exists_congr keeps.collect?

end Keeps

/--
At any time as many results are missing as there are ids that were added and have none.  When there
are none of those, and only then, the results are handed out: for each id, in the order of first
addition, the first one that was recorded for it after it was added.  No more than that makes a
difference, in particular not when other ids have got their results.
-/
theorem results_inOrder :
    (∀ acts, (added acts).Nodup ∧ (after acts).results.length ≤ (after acts).order.length ∧
      (after acts).remaining =
        ((added acts).filter fun id => (firstResult? id acts).isNone).length ∧
      ((after acts).collect?.isSome = true ↔
        ∀ id ∈ added acts, (firstResult? id acts).isSome = true) ∧
      (∀ results, (after acts).collect? = some results ↔
        (added acts).map (fun id => firstResult? id acts) = results.map some) ∧
      ∀ id, (after acts).accepts id = true ↔ id ∈ added acts ∧ firstResult? id acts = none) ∧
    ∀ acts others, added acts = added others →
      (∀ id ∈ added acts, firstResult? id acts = firstResult? id others) →
      (after acts).remaining = (after others).remaining ∧
        (after acts).collect? = (after others).collect? := by
  refine ⟨fun acts => ?_, fun acts others hadded hresults => ?_⟩
  · have keeps := keeps_after acts
    refine ⟨keeps.order ▸ keeps.distinct, ?_, keeps.remaining, keeps.isSome_collect?,
      keeps.collect?, keeps.accepts⟩
    rw [keeps.length_eq]
    exact Nat.le_add_right _ _
  · have keeps := keeps_after acts
    have others := keeps_after others
    refine ⟨?_, Option.ext fun results => ?_⟩
    · rw [keeps.remaining, others.remaining, ← hadded]
      congr 1
      exact List.filter_congr fun id hmem => by rw [hresults id hmem]
    · rw [keeps.collect?, others.collect?, ← hadded, List.map_congr_left hresults]

/-- Two trips are added together; the second one comes in first, and once more in vain. -/
def late : List Act :=
  [.add "there", .add "back", .record "back" (.int 2), .record "back" (.int 9),
    .record "there" (.int 1)]

/-- The first trip is over before the second one begins, and a result that nobody asked for is
recorded. -/
def early : List Act :=
  [.record "back" (.int 7), .add "there", .record "there" (.int 1), .add "there", .add "back",
    .record "back" (.int 2)]

theorem late_asEarly :
    added late = added early ∧
      (∀ id ∈ added late, firstResult? id late = firstResult? id early) ∧
      (after late).collect? = some [.int 1, .int 2] ∧
      (after late).collect? = (after early).collect? := by
  have hadded : added late = added early := by decide
  have hresults : ∀ id ∈ added late, firstResult? id late = firstResult? id early := by decide
  have hfirst : (added late).map (fun id => firstResult? id late) =
      [Json.int 1, Json.int 2].map some := by decide
  obtain ⟨hexact, hsame⟩ := results_inOrder
  obtain ⟨-, -, -, -, hcollected, -⟩ := hexact late
  exact ⟨hadded, hresults, (hcollected _).2 hfirst, (hsame late early hadded hresults).2⟩

end FanIn

end Chronicle
