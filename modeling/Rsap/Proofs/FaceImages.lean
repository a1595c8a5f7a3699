import Mathlib.Data.List.Range
import Rsap.Webapp.Persons

/-!
# `Rsap.Proofs.FaceImages`: who refers to a face image

An uploaded object belongs to a person row, to a row of the cleanup outbox, or to a request that
has yet to give it to one of them. `advance_custody` says that a careful step moves objects between
these places, and `Custody` that no object is lost or in two places.

A step is careful (`Careful`) when an update replaces the image that it read, and when a request
that fails after its upload has changed nothing and gets its compensation through. Two updates that
read the same image are not: the second one forgets the image of the first (`lost_image`).
-/

set_option autoImplicit false

namespace Rsap.Proofs

open Rsap.Library
open Rsap.Library.Machine (Reachable Any)
open Rsap.Desktop (Uuid)
open Rsap.Webapp

/-- The objects that a request has uploaded and not yet given away. -/
def inHand : PersonRequest → List ObjectName
  | .createUploaded object => [object]
  | .updateUploaded _ _ object => [object]
  | .compensate object => [object]
  | _ => []

/-- The images of the persons. -/
def faceImages (s : PersonStore) : List ObjectName :=
  s.persons.rows.filterMap Person.faceImageId

/-- The objects with a row in the outbox. -/
def cleanups (s : PersonStore) : List ObjectName := s.outbox.rows.map CleanupRow.objectName

/-- The step of a request is careful. -/
def CarefulStep (s : PersonStore) : PersonRequest → StepOutcome → Prop
  | .create, outcome => outcome ≠ .raisedAfter
  | .updateRead _ _, outcome => outcome ≠ .raisedAfter
  | .createUploaded _, outcome => outcome = .done ∨ outcome = .raised
  | .updateUploaded personId oldId _, outcome =>
    outcome = .raised ∨ outcome = .done ∧
      (s.persons.find personId).map Person.faceImageId = some oldId
  | .compensate _, outcome => outcome = .done ∨ outcome = .raisedAfter
  | _, _ => True

instance CarefulStep.decidable (s : PersonStore) :
    ∀ request outcome, Decidable (CarefulStep s request outcome)
  | .create, _ => inferInstanceAs (Decidable (_ ≠ _))
  | .updateRead _ _, _ => inferInstanceAs (Decidable (_ ≠ _))
  | .createUploaded _, _ => inferInstanceAs (Decidable (_ ∨ _))
  | .updateUploaded _ _ _, _ => inferInstanceAs (Decidable (_ ∨ _))
  | .compensate _, _ => inferInstanceAs (Decidable (_ ∨ _))
  | .updateFace _, _ => .isTrue trivial
  | .delete _, _ => .isTrue trivial
  | .deleteRead _, _ => .isTrue trivial

/-- An update replaces the image that it read, and a request that fails after its upload has
changed nothing and gets its compensation through. -/
def Careful (w : PersonWorld) : PersonAct → Prop
  | .run i _ outcome => ∀ request ∈ w.requests[i]?, CarefulStep w.store request outcome
  | _ => True

instance Careful.decidable (w : PersonWorld) : ∀ act, Decidable (Careful w act)
  | .run i _ outcome =>
    inferInstanceAs (Decidable (∀ request ∈ w.requests[i]?, CarefulStep w.store request outcome))
  | .createPerson => .isTrue trivial
  | .updateFace _ => .isTrue trivial
  | .deletePerson _ => .isTrue trivial
  | .deleteFile _ => .isTrue trivial
  | .markProcessed _ => .isTrue trivial

section Store
variable {s : PersonStore}

/-- An object without a row gets one. -/
theorem enqueue_custody {object : ObjectName} (h : object ∉ cleanups s) :
    (cleanups (s.enqueueExternalCleanup object)).Perm (object :: cleanups s) ∧
      (s.enqueueExternalCleanup object).persons = s.persons ∧
      (s.enqueueExternalCleanup object).uploaded = s.uploaded := by
  unfold PersonStore.enqueueExternalCleanup
  split
  · rename_i outbox hinsert
    refine ⟨?_, rfl, rfl⟩
    show (outbox.rows.map CleanupRow.objectName).Perm _
    rw [(KeyedTable.insert_some hinsert).1, List.map_append]
    exact List.perm_append_comm
  · rename_i hinsert
    exfalso
    unfold KeyedTable.insert at hinsert
    split at hinsert
    · cases hinsert
    · rename_i htaken
      refine htaken fun row hrow heq => h ?_
      exact List.mem_map.mpr ⟨row, hrow, heq⟩

/-- An object that has a row keeps it. -/
theorem mem_cleanups_enqueue {object other : ObjectName} (h : other ∈ cleanups s) :
    other ∈ cleanups (s.enqueueExternalCleanup object) := by
  unfold PersonStore.enqueueExternalCleanup
  split
  · rename_i outbox hinsert
    show other ∈ outbox.rows.map CleanupRow.objectName
    rw [(KeyedTable.insert_some hinsert).1, List.map_append]
    exact List.mem_append_left _ h
  · exact h

/-- The image of a person leaves the list of images when its row is deleted. -/
theorem faceImages_delete {person : Person} (h : person ∈ s.persons) :
    (faceImages s).Perm (person.faceImageId.toList ++
      ((s.persons.delete fun p => p.id = person.id).rows.filterMap Person.faceImageId)) := by
  have hperm := (s.persons.unique.perm_cons h).filterMap Person.faceImageId
  refine hperm.trans ?_
  rw [List.filterMap_cons]
  cases person.faceImageId with
  | none => exact List.Perm.refl _
  | some object => exact List.Perm.refl _

/-- A new image takes the place of the old one. -/
theorem faceImages_update {person : Person} (h : person ∈ s.persons) (object : ObjectName) :
    ((s.persons.update (fun p => p.id = person.id)
      (fun p => { p with faceImageId := some object }) fun _ => rfl).rows.filterMap
        Person.faceImageId).Perm
      (object :: (s.persons.delete fun p => p.id = person.id).rows.filterMap
        Person.faceImageId) := by
  exact (s.persons.unique.updateWhere_perm h fun p =>
    { p with faceImageId := some object }).filterMap Person.faceImageId

/-- The objects that the tables refer to. -/
def referred (s : PersonStore) : List ObjectName := faceImages s ++ cleanups s

/-- An old image gets a row in the outbox. -/
theorem enqueueOld_custody {oldId : Option ObjectName}
    (h : ∀ object, oldId = some object → object ∉ cleanups s) :
    (referred (s.enqueueOld oldId)).Perm (oldId.toList ++ referred s) ∧
      (s.enqueueOld oldId).uploaded = s.uploaded := by
  cases oldId with
  | none => exact ⟨List.Perm.refl _, rfl⟩
  | some object =>
    obtain ⟨hcleanups, hpersons, huploaded⟩ := enqueue_custody (h object rfl)
    refine ⟨?_, huploaded⟩
    have hfaces : faceImages (s.enqueueExternalCleanup object) = faceImages s := by
      rw [faceImages, hpersons, ← faceImages]
    show (faceImages (s.enqueueExternalCleanup object) ++ _).Perm _
    rw [hfaces]
    exact (hcleanups.append_left _).trans List.perm_middle

/-- The new person takes the object. -/
theorem insertPerson_custody {s' : PersonStore} {personId : Uuid} {object : ObjectName}
    (h : s.insertPerson personId object = some s') :
    (referred s').Perm (object :: referred s) ∧ s'.uploaded = s.uploaded := by
  obtain ⟨persons, hinsert, rfl⟩ := Option.map_eq_some_iff.mp h
  refine ⟨?_, rfl⟩
  show (persons.rows.filterMap Person.faceImageId ++ cleanups s).Perm _
  rw [(KeyedTable.insert_some hinsert).1, List.filterMap_append]
  show (faceImages s ++ [object] ++ cleanups s).Perm _
  rw [List.append_assoc]
  exact List.perm_middle

/-- An image of a person has no row, since no object is in two places. -/
theorem image_not_cleanup (hnodup : (referred s).Nodup) {person : Person}
    (h : person ∈ s.persons) :
    ∀ object, person.faceImageId = some object → object ∉ cleanups s := by
  intro object heq hmem
  have himage : object ∈ faceImages s := List.mem_filterMap.mpr ⟨person, h, heq⟩
  exact (List.nodup_append.mp hnodup).2.2 object himage object hmem rfl

/-- The person takes the new object, and the old one goes to the outbox. -/
theorem replaceFace_custody (hnodup : (referred s).Nodup) {person : Person}
    (h : person ∈ s.persons) (object : ObjectName) :
    (referred (s.replaceFace person.id person.faceImageId object)).Perm
      (object :: referred s) ∧
      (s.replaceFace person.id person.faceImageId object).uploaded = s.uploaded := by
  obtain ⟨hperm, huploaded⟩ := @enqueueOld_custody
    { s with
      persons := s.persons.update (fun p => p.id = person.id)
        (fun p => { p with faceImageId := some object }) fun _ => rfl }
    person.faceImageId (image_not_cleanup hnodup h)
  refine ⟨hperm.trans ?_, huploaded⟩
  refine List.perm_iff_count.mpr fun other => ?_
  have hupdate := (faceImages_update h object).count_eq other
  have hdelete := (faceImages_delete h).count_eq other
  simp only [referred, faceImages, cleanups, List.count_append, List.count_cons]
    at hupdate hdelete ⊢
  omega

/-- The image of the person goes to the outbox. -/
theorem deletePerson_custody (hnodup : (referred s).Nodup) {s' : PersonStore} {personId : Uuid}
    (h : s.deletePerson personId = some s') :
    (referred s').Perm (referred s) ∧ s'.uploaded = s.uploaded := by
  obtain ⟨person, hfind, rfl⟩ := Option.map_eq_some_iff.mp h
  obtain ⟨hmem, rfl⟩ := KeyedTable.find_eq_some.mp hfind
  obtain ⟨hperm, huploaded⟩ := @enqueueOld_custody
    { s with persons := s.persons.delete fun p => p.id = person.id }
    person.faceImageId (image_not_cleanup hnodup hmem)
  refine ⟨hperm.trans ?_, huploaded⟩
  have hdelete := (faceImages_delete hmem).symm
  show (person.faceImageId.toList ++ (_ ++ cleanups s)).Perm (faceImages s ++ cleanups s)
  rw [← List.append_assoc]
  exact hdelete.append_right _

/-- A careful step moves objects between the tables and its request, and takes at most the next
object in. -/
theorem advance_custody {newId : Uuid} {request : PersonRequest} {outcome : StepOutcome}
    (hcareful : CarefulStep s request outcome) (hnodup : (referred s ++ inHand request).Nodup) :
    ∃ new, List.range (s.advance newId request outcome).1.uploaded =
        List.range s.uploaded ++ new ∧
      (referred (s.advance newId request outcome).1 ++
        (s.advance newId request outcome).2.toList.flatMap inHand).Perm
        (new ++ (referred s ++ inHand request)) := by
  have htables : (referred s).Nodup := (List.nodup_append.mp hnodup).1
  -- a step leaves the objects where they are, uploads a new one, or gives one to the tables
  have hkept : ∀ next : Option PersonRequest, next.toList.flatMap inHand = inHand request →
      ∃ new, List.range s.uploaded = List.range s.uploaded ++ new ∧
        (referred s ++ next.toList.flatMap inHand).Perm
          (new ++ (referred s ++ inHand request)) := by
    intro next hnext
    exact ⟨[], (List.append_nil _).symm, by rw [hnext]; exact List.Perm.refl _⟩
  have huploads : ∀ next : Option PersonRequest, next.toList.flatMap inHand = [s.uploaded] →
      inHand request = [] →
      ∃ new, List.range s.upload.uploaded = List.range s.uploaded ++ new ∧
        (referred s.upload ++ next.toList.flatMap inHand).Perm
          (new ++ (referred s ++ inHand request)) := by
    intro next hnext hhand
    refine ⟨[s.uploaded], List.range_succ, ?_⟩
    rw [hnext, hhand, List.append_nil]
    exact List.perm_append_comm
  have hgives : ∀ s' : PersonStore, ∀ object, inHand request = [object] →
      (referred s').Perm (object :: referred s) ∧ s'.uploaded = s.uploaded →
      ∃ new, List.range s'.uploaded = List.range s.uploaded ++ new ∧
        (referred s' ++ (none : Option PersonRequest).toList.flatMap inHand).Perm
          (new ++ (referred s ++ inHand request)) := by
    intro s' object hhand ⟨hperm, heq⟩
    refine ⟨[], by rw [heq, List.append_nil], ?_⟩
    rw [hhand]
    simpa using hperm.trans (List.perm_append_singleton object _).symm
  cases request with
  | create =>
    cases outcome with
    | done => exact huploads _ rfl rfl
    | raisedAfter => exact absurd rfl hcareful
    | raised | cancelled => exact hkept none rfl
  | updateRead personId oldId =>
    cases outcome with
    | done => exact huploads _ rfl rfl
    | raisedAfter => exact absurd rfl hcareful
    | raised | cancelled => exact hkept none rfl
  -- the object goes to the new person, or the compensation takes it
  | createUploaded object =>
    rcases hcareful with rfl | rfl
    · simp only [PersonStore.advance]
      split
      · rename_i s' hinsert
        exact hgives s' object rfl (insertPerson_custody hinsert)
      · exact hkept (some (.compensate object)) rfl
    · exact hkept (some (.compensate object)) rfl
  -- the image that was read is still the person's, by the condition
  | updateUploaded personId oldId object =>
    rcases hcareful with rfl | ⟨rfl, hread⟩
    · exact hkept (some (.compensate object)) rfl
    · obtain ⟨person, hfind, rfl⟩ := Option.map_eq_some_iff.mp hread
      obtain ⟨hmem, rfl⟩ := KeyedTable.find_eq_some.mp hfind
      exact hgives _ object rfl (replaceFace_custody htables hmem object)
  -- the object is in hand, so it has no row in the outbox yet
  | compensate object =>
    have hnew : object ∉ cleanups s := by
      intro hmem
      exact (List.nodup_append.mp hnodup).2.2 object (List.mem_append_right _ hmem) object
        List.mem_cons_self rfl
    have hrow : (referred (s.enqueueExternalCleanup object)).Perm (object :: referred s) ∧
        (s.enqueueExternalCleanup object).uploaded = s.uploaded :=
      @enqueueOld_custody s (some object) fun _ heq => by cases heq; exact hnew
    rcases hcareful with rfl | rfl
    · exact hgives _ object rfl hrow
    · exact hgives _ object rfl hrow
  | updateFace personId =>
    cases outcome with
    | done =>
      simp only [PersonStore.advance]
      refine hkept _ ?_
      cases s.persons.find personId <;> rfl
    | raised | raisedAfter | cancelled => exact hkept none rfl
  | delete personId =>
    cases outcome with
    | done =>
      simp only [PersonStore.advance]
      refine hkept _ ?_
      cases s.persons.find personId <;> rfl
    | raised | raisedAfter | cancelled => exact hkept none rfl
  -- the image of the person goes to the outbox in the same transaction
  | deleteRead personId =>
    have hdelete : ∃ new, List.range ((s.deletePerson personId).getD s).uploaded =
          List.range s.uploaded ++ new ∧
        (referred ((s.deletePerson personId).getD s) ++ []).Perm
          (new ++ (referred s ++ [])) := by
      cases hs : s.deletePerson personId with
      | none => exact ⟨[], (List.append_nil _).symm, List.Perm.refl _⟩
      | some s' =>
        obtain ⟨hperm, heq⟩ := deletePerson_custody htables hs
        refine ⟨[], by rw [Option.getD_some, heq, List.append_nil], ?_⟩
        simpa using hperm
    cases outcome with
    | done | raisedAfter => exact hdelete
    | raised | cancelled => exact hkept none rfl

/-- What was uploaded stays in the bucket while requests run, and rows of the outbox stay. -/
structure Grows (s s' : PersonStore) : Prop where
  bucket : s.bucket ⊆ s'.bucket
  cleanups : cleanups s ⊆ cleanups s'
  uploaded : ∀ object < s'.uploaded, object < s.uploaded ∨ object ∈ s'.bucket

/-- Nothing changed. -/
theorem Grows.refl (s : PersonStore) : Grows s s :=
  ⟨List.Subset.refl _, List.Subset.refl _, fun _ h => .inl h⟩

/-- A row for the old image is added. -/
theorem Grows.enqueueOld (s : PersonStore) (oldId : Option ObjectName) :
    Grows s (s.enqueueOld oldId) := by
  cases oldId with
  | none => exact .refl s
  | some object =>
    have hrow : (s.enqueueExternalCleanup object).bucket = s.bucket ∧
        (s.enqueueExternalCleanup object).uploaded = s.uploaded := by
      unfold PersonStore.enqueueExternalCleanup
      split <;> exact ⟨rfl, rfl⟩
    refine ⟨?_, fun other hother => mem_cleanups_enqueue hother, fun other hother => .inl ?_⟩
    · show s.bucket ⊆ (s.enqueueExternalCleanup object).bucket
      rw [hrow.1]
      exact List.Subset.refl _
    · exact hother.trans_eq hrow.2

/-- An upload adds an object. -/
theorem Grows.upload (s : PersonStore) : Grows s s.upload := by
  refine ⟨List.subset_cons_self _ _, List.Subset.refl _, fun object h => ?_⟩
  rcases Nat.lt_succ_iff_lt_or_eq.mp h with hlt | rfl
  · exact .inl hlt
  · exact .inr List.mem_cons_self

/-- A new person takes no object away. -/
theorem Grows.insertPerson (s : PersonStore) (personId : Uuid) (object : ObjectName) :
    Grows s ((s.insertPerson personId object).getD s) := by
  unfold PersonStore.insertPerson
  cases s.persons.insert ⟨personId, some object⟩ with
  | none => exact .refl s
  | some persons => exact ⟨List.Subset.refl _, List.Subset.refl _, fun _ h => .inl h⟩

/-- A new image takes no object away. -/
theorem Grows.replaceFace (s : PersonStore) (personId : Uuid) (oldId : Option ObjectName)
    (object : ObjectName) : Grows s (s.replaceFace personId oldId object) := by
  have h := Grows.enqueueOld
    { s with
      persons := s.persons.update (fun p => p.id = personId)
        (fun p => { p with faceImageId := some object }) fun _ => rfl } oldId
  exact ⟨h.bucket, h.cleanups, h.uploaded⟩

/-- A deleted person takes no object away. -/
theorem Grows.deletePerson (s : PersonStore) (personId : Uuid) :
    Grows s ((s.deletePerson personId).getD s) := by
  unfold PersonStore.deletePerson
  cases s.persons.find personId with
  | none => exact .refl s
  | some person =>
    have h := Grows.enqueueOld
      { s with persons := s.persons.delete fun p => p.id = personId } person.faceImageId
    exact ⟨h.bucket, h.cleanups, h.uploaded⟩

/-- No step of a request takes an object from the bucket or a row from the outbox. -/
theorem advance_grows (s : PersonStore) (newId : Uuid) (request : PersonRequest)
    (outcome : StepOutcome) : Grows s (s.advance newId request outcome).1 := by
  cases request with
  | create | updateRead =>
    cases outcome with
    | done | raisedAfter => exact .upload s
    | raised | cancelled => exact .refl s
  -- a step that raises after its effect has it all the same
  | createUploaded object =>
    cases outcome with
    | done =>
      have h := Grows.insertPerson s newId object
      simp only [PersonStore.advance]
      cases hinsert : s.insertPerson newId object with
      | none => exact .refl s
      | some s' =>
        rw [hinsert] at h
        exact h
    | raisedAfter => exact .insertPerson s newId object
    | raised | cancelled => exact .refl s
  | updateUploaded personId oldId object =>
    cases outcome with
    | done | raisedAfter => exact .replaceFace s personId oldId object
    | raised | cancelled => exact .refl s
  | deleteRead personId =>
    cases outcome with
    | done | raisedAfter => exact .deletePerson s personId
    | raised | cancelled => exact .refl s
  | compensate object =>
    cases outcome with
    | done | raisedAfter => exact .enqueueOld s (some object)
    | raised | cancelled => exact .refl s
  | updateFace | delete =>
    cases outcome with
    | done | raised | raisedAfter | cancelled => exact .refl s

end Store

/-! ### Runs -/

/-- Every uploaded object is in one place, and an object without a row is in the bucket. -/
structure Custody (w : PersonWorld) : Prop where
  objects : (referred w.store ++ w.requests.flatMap inHand).Perm (List.range w.store.uploaded)
  stored : ∀ object < w.store.uploaded, object ∉ cleanups w.store → object ∈ w.store.bucket

/-- Nothing has been uploaded. -/
theorem custody_init : Custody personMachine.init where
  objects := List.Perm.refl _
  stored _ h := absurd h (Nat.not_lt_zero _)

/-- A careful step keeps every object in one place. -/
theorem custody_keeps {w w' : PersonWorld} {act : PersonAct} (hcareful : Careful w act)
    (hinv : Custody w) (hstep : personStep w act = some w') : Custody w' := by
  cases act with
  | createPerson | updateFace | deletePerson =>
    simp only [personStep, Option.some.injEq] at hstep
    subst hstep
    refine ⟨?_, hinv.stored⟩
    show (referred w.store ++ _).Perm _
    rw [custody_begin inHand rfl]
    exact hinv.objects
  | run i newId outcome =>
    simp only [personStep] at hstep
    split at hstep
    · cases hstep
    · rename_i request hrequest
      cases hstep
      -- the objects in the hands of this request are in no other place
      have hnodup : (referred w.store ++ inHand request).Nodup := by
        have hall := hinv.objects.nodup_iff.mpr List.nodup_range
        have hperm := (flatMap_eraseIdx_perm inHand hrequest).append_left (referred w.store)
        rw [← List.append_assoc] at hperm
        exact (List.nodup_append.mp (hperm.nodup_iff.mp hall)).1
      obtain ⟨new, hrange, hmoved⟩ := @advance_custody w.store newId request outcome
        (hcareful request hrequest) hnodup
      have hgrows := advance_grows w.store newId request outcome
      constructor
      case objects =>
        show List.Perm (_ ++ _) (List.range _)
        rw [hrange]
        exact (custody_step inHand hrequest hmoved hinv.objects).trans List.perm_append_comm
      case stored =>
        intro object hobject hrow
        rcases hgrows.uploaded object hobject with hold | hmem
        · exact hgrows.bucket (hinv.stored object hold fun hmem => hrow (hgrows.cleanups hmem))
        · exact hmem
  -- the bucket loses only objects with a row
  | deleteFile row =>
    simp only [personStep] at hstep
    split at hstep
    · rename_i hrow
      cases hstep
      refine ⟨hinv.objects, fun object hobject hnone => ?_⟩
      refine List.mem_filter.mpr ⟨hinv.stored object hobject hnone, decide_eq_true ?_⟩
      rintro rfl
      exact hnone (List.mem_map_of_mem hrow)
    · cases hstep
  -- a row that is processed stays one
  | markProcessed row =>
    simp only [personStep] at hstep
    split at hstep
    · cases hstep
      have hnames : cleanups { w.store with
          outbox := w.store.outbox.update (fun r => r = row)
            (fun r => { r with processed := true }) fun _ => rfl } = cleanups w.store :=
        map_updateWhere fun _ _ => rfl
      refine ⟨?_, fun object hobject hnone => hinv.stored object hobject ?_⟩
      · show (faceImages w.store ++ _ ++ _).Perm _
        rw [hnames]
        exact hinv.objects
      · rw [hnames] at hnone
        exact hnone
    · cases hstep

/-- Every uploaded object is in one place, in every reachable state. -/
theorem reachable_custody {w : PersonWorld} (h : Reachable personMachine Careful w) :
    Custody w := by
  refine h.invariant custody_init ?_
  intro w act w' _ hcareful hstep hinv
  exact custody_keeps hcareful hinv hstep

/-- In every run of careful steps, when no request is in progress, an uploaded object is the image
of exactly one person or has a row in the outbox, and an image of a person has no row and is in
the bucket. -/
theorem face_images_kept {w : PersonWorld} (h : Reachable personMachine Careful w)
    (hquiet : w.requests = []) :
    (∀ object < w.store.uploaded,
      (faceImages w.store).count object = 1 ∨ object ∈ cleanups w.store) ∧
    ∀ object ∈ faceImages w.store,
      object ∉ cleanups w.store ∧ object ∈ w.store.bucket := by
  have hinv := reachable_custody h
  have hobjects := hinv.objects
  rw [hquiet, List.flatMap_nil, List.append_nil] at hobjects
  have hnodup : (faceImages w.store ++ cleanups w.store).Nodup :=
    hobjects.nodup_iff.mpr List.nodup_range
  constructor
  · intro object hobject
    rcases List.mem_append.mp (hobjects.mem_iff.mpr (List.mem_range.mpr hobject)) with
      himage | hrow
    · exact .inl (List.count_eq_one_of_mem (List.nodup_append.mp hnodup).1 himage)
    · exact .inr hrow
  · intro object himage
    have hrow : object ∉ cleanups w.store := fun hrow =>
      (List.nodup_append.mp hnodup).2.2 object himage object hrow rfl
    have hobject : object < w.store.uploaded :=
      List.mem_range.mp (hobjects.mem_iff.mp (List.mem_append_left _ himage))
    exact ⟨hrow, hinv.stored object hobject hrow⟩

/-- A person is created. -/
def createdPerson : List PersonAct := [.createPerson, .run 0 0 .done, .run 0 7 .done]

/-- Two updates of the person read the same image. The image of the first one is neither the
image of the person nor in the outbox when both are done. -/
theorem lost_image :
    let w := personMachine.final personMachine.init
      (createdPerson ++ [.updateFace 7, .updateFace 7, .run 0 0 .done, .run 1 0 .done,
        .run 0 0 .done, .run 0 0 .done, .run 0 0 .done, .run 0 0 .done])
    Reachable personMachine Any w ∧ w.requests = [] ∧ 1 < w.store.uploaded ∧
      (faceImages w.store).count 1 = 0 ∧ 1 ∉ cleanups w.store := by
  intro w
  have hrun : Reachable personMachine Any w := Reachable.init.final _ (by decide)
  exact ⟨hrun, by decide, by decide, by decide, by decide⟩

/-- One update after the other: the image of the first one has a row in the outbox. A failed
update between them puts its own image there. -/
theorem replaced_images_kept :
    let w := personMachine.final personMachine.init
      (createdPerson ++ [.updateFace 7, .run 0 0 .done, .run 0 0 .done, .run 0 0 .done,
        .updateFace 7, .run 0 0 .done, .run 0 0 .done, .run 0 0 .raised, .run 0 0 .done,
        .updateFace 7, .run 0 0 .done, .run 0 0 .done, .run 0 0 .done])
    (faceImages w.store).count 2 = 1 ∨ 2 ∈ cleanups w.store := by
  intro w
  have hrun : Reachable personMachine Careful w := Reachable.init.final _ (by decide)
  exact (face_images_kept hrun (by decide)).1 2 (by decide)

end Rsap.Proofs
