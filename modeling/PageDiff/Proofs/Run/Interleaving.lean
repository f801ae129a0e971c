import Mathlib.Algebra.Order.BigOperators.Group.List
import Mathlib.Algebra.Order.Ring.Nat
import Mathlib.Data.List.Nodup
import Mathlib.Data.List.Perm.Subperm
import Mathlib.Logic.Relation
import PageDiff.Proofs.Run.Jobs
import PageDiff.Proofs.Run.Mismatch

/-!
# Writing three pictures at once

The three pictures of a mismatch are written by three threads, whose steps may come in any order.
The caller waits until it has heard of all of them, and then tells the first failure in the order of
the pictures.  Main statement (`written_in_any_order`): every run comes to an end, and what it
leaves and tells is the same for all of them, and for the threads of the program the same as when
they run one after the other.
-/

namespace PageDiff.Run

open PageDiff.Disk PageDiff.Path

/-! ### Runs of three threads -/

/-- The three pictures. -/
inductive Slot
  | diff
  | pageA
  | pageB
  deriving DecidableEq, Repr

/-- The order in which failures are told. -/
def Slot.all : List Slot := [.diff, .pageA, .pageB]

def ArtifactPaths.path (paths : ArtifactPaths) : Slot → Path
  | .diff => paths.diff
  | .pageA => paths.pageA
  | .pageB => paths.pageB

/-- Three threads on one disk, and the caller that waits for them. -/
structure Threads where
  disk : Disk
  stage : Slot → Stage := fun _ => .waiting
  /-- The threads that the caller has heard of, the latest one first. -/
  heard : List Slot := []
  told : Option (Except ArtifactError ArtifactPaths) := none

/-- The first error in the order of the pictures, or the three paths. -/
def tellFirst (paths : ArtifactPaths) (error : Slot → Option ArtifactError) :
    Except ArtifactError ArtifactPaths :=
  match Slot.all.findSome? error with
  | some e => .error e
  | none => .ok paths

/-- What the caller tells of threads that have finished. -/
def answer (paths : ArtifactPaths) (stage : Slot → Stage) : Except ArtifactError ArtifactPaths :=
  tellFirst paths fun slot => (stage slot).raised.bind (Raised.error? (paths.path slot))

namespace Threads

variable (paths : ArtifactPaths) (jobs : Slot → Job)

/-- One thread goes on. -/
def work (s : Threads) (slot : Slot) : Threads :=
  let after := (jobs slot).step (paths.path slot) (s.stage slot, s.disk)
  { s with disk := after.2, stage := Function.update s.stage slot after.1 }

inductive Step : Threads → Threads → Prop
  | work (s : Threads) (slot : Slot) (h : ¬ (s.stage slot).IsFinished) :
      Step s (s.work paths jobs slot)
  /-- The caller hears of a thread that has finished. -/
  | hear (s : Threads) (slot : Slot) (h : (s.stage slot).IsFinished) (hnew : slot ∉ s.heard) :
      Step s { s with heard := slot :: s.heard }
  /-- The caller has heard of as many threads as there are. -/
  | tell (s : Threads) (h : s.heard.length = Slot.all.length) (hnew : s.told = none) :
      Step s { s with told := some (answer paths s.stage) }

/-- The threads come to a state from the beginning. -/
def ComesTo (d : Disk) (s : Threads) : Prop :=
  Relation.ReflTransGen (Step paths jobs) { disk := d } s

end Threads

/-! ### Three files side by side -/

/-- The files of three paths lie in one directory, each at a place of its own. -/
structure SideBySide (out : Path) (paths : ArtifactPaths) (cur : Place) : Prop where
  sound : out.Sound
  child : ∀ slot, ∃ n, IsName n ∧ paths.path slot = out.child n
  apart : ∀ slot slot', (paths.path slot).place cur = (paths.path slot').place cur → slot = slot'

variable {out : Path} {paths : ArtifactPaths} {jobs : Slot → Job} {d : Disk} {s t : Threads}
  {slot : Slot} {q : Place} {name urlA urlB : String}

theorem Slot.mem_all (slot : Slot) : slot ∈ Slot.all := by
  cases slot <;> decide

theorem Slot.nodup_all : Slot.all.Nodup := by decide

theorem path_mem (paths : ArtifactPaths) (slot : Slot) : paths.path slot ∈ paths.toList := by
  cases slot <;> simp [ArtifactPaths.path, ArtifactPaths.toList]

theorem path_injective (h : paths.toList.Nodup) : Function.Injective paths.path := by
  simp only [ArtifactPaths.toList, List.nodup_cons, List.mem_cons, List.not_mem_nil, or_false,
    not_or] at h
  intro slot slot' heq
  cases slot <;> cases slot' <;> simp_all [ArtifactPaths.path]

theorem sideBySide_of_artifacts (hout : out.Sound)
    (h : ArtifactPaths.ofTest out name urlA urlB = .ok paths) (hapart : paths.toList.Nodup)
    (cur : Place) : SideBySide out paths cur := by
  have hshown := (mem_artifacts h).2
  refine ⟨hout, fun slot => ?_, fun slot slot' hplace => ?_⟩
  · obtain ⟨shown, hslash, heq⟩ := hshown _ (path_mem paths slot)
    exact ⟨_, ⟨artifactName_ne_empty _ _, slash_not_mem_artifactName name hslash⟩, heq⟩
  · obtain ⟨shown, -, heq⟩ := hshown _ (path_mem paths slot)
    obtain ⟨shown', -, heq'⟩ := hshown _ (path_mem paths slot')
    rw [heq, heq', place_artifact_eq_iff] at hplace
    apply path_injective hapart
    rw [heq, heq', hplace.2]

/-! ### What holds all the time -/

/-- Nothing has changed beside the files, each thread has come as far as it would alone, and the
caller has heard of finished threads only, of all of them if it has told. -/
structure Threads.Holds (out : Path) (paths : ArtifactPaths) (jobs : Slot → Job) (d : Disk)
    (s : Threads) : Prop where
  beside : ∀ q, (∀ slot, q ≠ (paths.path slot).place d.current) → s.disk.find? q = d.find? q
  alike : ∀ slot, ∃ k, (jobs slot).Alike out (paths.path slot) d k (s.stage slot, s.disk)
  nodup : s.heard.Nodup
  heard : ∀ slot ∈ s.heard, (s.stage slot).IsFinished
  told : ∀ r, s.told = some r → (∀ slot, (s.stage slot).IsFinished) ∧ r = answer paths s.stage

/-- Who has heard of three threads has heard of all. -/
theorem perm_all_of_length (hnodup : s.heard.Nodup) (h : s.heard.length = Slot.all.length) :
    s.heard.Perm Slot.all :=
  (hnodup.subperm fun slot _ => slot.mem_all).perm_of_length_le h.ge

theorem holds_start (out : Path) (paths : ArtifactPaths) (jobs : Slot → Job) (d : Disk) :
    Threads.Holds out paths jobs d { disk := d } where
  beside _ _ := rfl
  alike _ := ⟨0, .refl out d, rfl, rfl⟩
  nodup := .nil
  heard := by simp
  told := by simp

theorem stage_work (paths : ArtifactPaths) (jobs : Slot → Job) (s : Threads) (slot : Slot) :
    (s.work paths jobs slot).stage slot =
      ((jobs slot).step (paths.path slot) (s.stage slot, s.disk)).1 :=
  Function.update_self ..

theorem stage_work_of_ne {slot' : Slot} (h : slot' ≠ slot) :
    (s.work paths jobs slot).stage slot' = s.stage slot' :=
  Function.update_of_ne h _ _

/-- A step of one thread keeps another one as far as it has come. -/
theorem alike_beside {job : Job} {path : Path} {change : Change} {stage : Stage} {k : ℕ}
    {n : String} (hout : out.Sound) (hn : IsName n) (hchange : change.OpenedOn d (out.child n))
    (hplace : path.place d.current ≠ (out.child n).place d.current)
    (h : job.Alike out path d k (stage, s.disk)) :
    job.Alike out path d k (stage, change.on s.disk) := by
  refine ⟨filesIn_change h.files hout hn hchange, h.stage, ?_⟩
  rw [← h.find]
  exact find?_change_beside (hout.child hn.2) hchange hplace s.disk

theorem Threads.Holds.work (h : s.Holds out paths jobs d) (hside : SideBySide out paths d.current)
    (hslot : ¬ (s.stage slot).IsFinished) : (s.work paths jobs slot).Holds out paths jobs d := by
  obtain ⟨k, halike⟩ := h.alike slot
  obtain ⟨n, hn, hpath⟩ := hside.child slot
  rw [hpath] at halike
  have hchange := halike.next_openedOn hside.sound hn
  have hdisk : (s.work paths jobs slot).disk =
      (((jobs slot).next (out.child n) s.disk (s.stage slot)).2).on s.disk := by
    rw [Threads.work, Job.step, hpath]
  have hfinished : ∀ slot', (s.stage slot').IsFinished → slot' ≠ slot := by
    rintro slot' hfin rfl
    exact hslot hfin
  refine ⟨fun q hq => ?_, fun slot' => ?_, h.nodup, fun slot' hmem => ?_, fun r hr => ?_⟩
  · have hne := hq slot
    rw [hpath] at hne
    rw [hdisk, find?_change_beside (hside.sound.child hn.2) hchange hne]
    exact h.beside q hq
  · by_cases hne : slot' = slot
    · subst hne
      refine ⟨k + 1, ?_⟩
      have hstep := halike.step hside.sound hn
      rw [← hpath] at hstep
      rw [stage_work]
      exact hstep
    · obtain ⟨k', halike'⟩ := h.alike slot'
      refine ⟨k', ?_⟩
      rw [stage_work_of_ne hne, hdisk]
      apply alike_beside hside.sound hn hchange _ halike'
      rw [← hpath]
      exact fun heq => hne (hside.apart _ _ heq)
  · have hfin := h.heard slot' hmem
    rwa [stage_work_of_ne (hfinished slot' hfin)]
  · exact absurd ((h.told r hr).1 slot) hslot

theorem Threads.Holds.step (h : s.Holds out paths jobs d) (hside : SideBySide out paths d.current)
    (hstep : Threads.Step paths jobs s t) : t.Holds out paths jobs d := by
  cases hstep with
  | work slot hslot => exact h.work hside hslot
  | hear slot hfin hnew =>
    refine ⟨h.beside, h.alike, List.nodup_cons.mpr ⟨hnew, h.nodup⟩, fun slot' hmem => ?_, h.told⟩
    rcases List.mem_cons.mp hmem with rfl | hmem
    · exact hfin
    · exact h.heard slot' hmem
  | tell hlength hnew =>
    refine ⟨h.beside, h.alike, h.nodup, h.heard, fun r hr => ?_⟩
    have hperm := perm_all_of_length h.nodup hlength
    refine ⟨fun slot => h.heard slot (hperm.mem_iff.mpr slot.mem_all), ?_⟩
    exact (Option.some.inj hr).symm

theorem Threads.ComesTo.holds (h : Threads.ComesTo paths jobs d s)
    (hside : SideBySide out paths d.current) : s.Holds out paths jobs d := by
  induction h with
  | refl => exact holds_start out paths jobs d
  | tail _ hstep ih => exact ih.step hside hstep

/-! ### Every run ends -/

/-- How many steps there are at most. -/
def Threads.left (s : Threads) : ℕ :=
  (Slot.all.map fun slot => (s.stage slot).left).sum + (Slot.all.length - s.heard.length) +
    if s.told = none then 1 else 0

/-- Before it is told, there is always something to be done. -/
theorem Threads.Holds.progress (h : s.Holds out paths jobs d) (htold : s.told = none) :
    ∃ t, Threads.Step paths jobs s t := by
  by_cases hfin : ∀ slot, (s.stage slot).IsFinished
  · by_cases hheard : ∀ slot, slot ∈ s.heard
    · have hperm : s.heard.Perm Slot.all :=
        (List.perm_ext_iff_of_nodup h.nodup Slot.nodup_all).mpr fun slot =>
          iff_of_true (hheard slot) slot.mem_all
      exact ⟨_, .tell s hperm.length_eq htold⟩
    · obtain ⟨slot, hslot⟩ := not_forall.mp hheard
      exact ⟨_, .hear s slot (hfin slot) hslot⟩
  · obtain ⟨slot, hslot⟩ := not_forall.mp hfin
    exact ⟨_, .work s slot hslot⟩

theorem left_work (slot' : Slot) :
    ((s.work paths jobs slot).stage slot').left ≤ (s.stage slot').left := by
  by_cases hne : slot' = slot
  · subst hne
    rw [stage_work]
    exact (left_next ..).trans (Nat.sub_le _ _)
  · rw [stage_work_of_ne hne]

theorem left_work_self (hslot : ¬ (s.stage slot).IsFinished) :
    ((s.work paths jobs slot).stage slot).left < (s.stage slot).left := by
  have hnext := left_next (jobs slot) (paths.path slot) s.disk (s.stage slot)
  have hpos : (s.stage slot).left ≠ 0 := mt Stage.left_eq_zero.mp hslot
  rw [stage_work]
  exact hnext.trans_lt (by omega)

theorem Threads.Holds.left_lt (h : s.Holds out paths jobs d)
    (hstep : Threads.Step paths jobs s t) : t.left < s.left := by
  cases hstep with
  | work slot hslot =>
    have hsum : (Slot.all.map fun slot' => ((s.work paths jobs slot).stage slot').left).sum <
        (Slot.all.map fun slot' => (s.stage slot').left).sum :=
      List.sum_lt_sum _ _ (fun slot' _ => left_work slot')
        ⟨slot, slot.mem_all, left_work_self hslot⟩
    exact Nat.add_lt_add_right (Nat.add_lt_add_right hsum _) _
  | hear slot hfin hnew =>
    have hheard : (slot :: s.heard).Subperm Slot.all :=
      (List.nodup_cons.mpr ⟨hnew, h.nodup⟩).subperm fun slot _ => slot.mem_all
    have hlength := hheard.length_le
    rw [List.length_cons] at hlength
    simp only [Threads.left, List.length_cons]
    omega
  | tell hlength hnew => simp [Threads.left, hnew]

/-- From every state that is come to, it is told in the end. -/
theorem Threads.Holds.exists_told (hside : SideBySide out paths d.current)
    (h : s.Holds out paths jobs d) :
    ∃ t told, Relation.ReflTransGen (Threads.Step paths jobs) s t ∧ t.told = some told := by
  induction hleft : s.left using Nat.strong_induction_on generalizing s with
  | _ left ih =>
    cases htold : s.told with
    | some told => exact ⟨s, told, .refl, htold⟩
    | none =>
      obtain ⟨next, hstep⟩ := h.progress htold
      obtain ⟨t, told, hrun, ht⟩ := ih next.left (hleft ▸ h.left_lt hstep) (h.step hside hstep) rfl
      exact ⟨t, told, .head hstep hrun, ht⟩

/-- No run goes on for ever. -/
theorem not_forever (hside : SideBySide out paths d.current) {run : ℕ → Threads}
    (hstart : run 0 = { disk := d }) : ¬ ∀ i, Threads.Step paths jobs (run i) (run (i + 1)) := by
  intro hsteps
  have hholds : ∀ i, (run i).Holds out paths jobs d ∧ (run i).left + i ≤ (run 0).left := by
    intro i
    induction i with
    | zero => exact ⟨hstart ▸ holds_start out paths jobs d, le_rfl⟩
    | succ i ih =>
      have hlt := ih.1.left_lt (hsteps i)
      exact ⟨ih.1.step hside (hsteps i), by omega⟩
  have hlast := (hholds ((run 0).left + 1)).2
  omega

/-! ### What a run leaves and tells -/

theorem tellFirst_eq_ok {error : Slot → Option ArtifactError} :
    tellFirst paths error = .ok paths ↔ ∀ slot, error slot = none := by
  unfold tellFirst
  cases hfind : Slot.all.findSome? error with
  | none =>
    rw [List.findSome?_eq_none_iff] at hfind
    exact iff_of_true rfl fun slot => hfind slot slot.mem_all
  | some e =>
    obtain ⟨slot, -, hslot⟩ := List.exists_of_findSome?_eq_some hfind
    refine iff_of_false nofun fun hall => ?_
    rw [hall slot] at hslot
    cases hslot

theorem tellFirst_eq_error {error : Slot → Option ArtifactError} {e : ArtifactError} :
    tellFirst paths error = .error e ↔ ∃ before slot after, Slot.all = before ++ slot :: after ∧
      error slot = some e ∧ ∀ earlier ∈ before, error earlier = none := by
  rw [← List.findSome?_eq_some_iff, tellFirst]
  cases Slot.all.findSome? error <;> simp

/-- The error for the fault that a job ends with on a disk. -/
def failure (paths : ArtifactPaths) (jobs : Slot → Job) (d : Disk) (slot : Slot) :
    Option ArtifactError :=
  ((jobs slot).fault (paths.path slot) d).map (⟨(paths.path slot).text, ·⟩)

/-- What has become of three threads when it has been told. -/
structure Threads.Concludes (paths : ArtifactPaths) (jobs : Slot → Job) (d : Disk) (s : Threads)
    (told : Except ArtifactError ArtifactPaths) : Prop where
  finished : ∀ slot, (s.stage slot).IsFinished
  stage : ∀ slot, s.stage slot = ((jobs slot).alone (paths.path slot) d).1
  fault : ∀ slot, (s.stage slot).raised = none ↔ (jobs slot).fault (paths.path slot) d = none
  kept : ∀ slot, (s.stage slot).raised = none → ∃ image, (jobs slot).picture = .ok image ∧
    s.disk.find? ((paths.path slot).place d.current) = some (.file (.picture image))
  returned : told = .ok paths ↔ ∀ slot, (s.stage slot).raised = none
  raised : ∀ e, told = .error e ↔ ∃ before slot after f, Slot.all = before ++ slot :: after ∧
    (∀ earlier ∈ before, (s.stage earlier).raised = none) ∧
    (jobs slot).fault (paths.path slot) d = some f ∧ e = ⟨(paths.path slot).text, f⟩
  told_eq : told = tellFirst paths (failure paths jobs d)
  current : s.disk.current = d.current
  alone : ∀ slot, s.disk.find? ((paths.path slot).place d.current) =
    ((jobs slot).alone (paths.path slot) d).2.find? ((paths.path slot).place d.current)
  beside : ∀ q, (∀ slot, q ≠ (paths.path slot).place d.current) → s.disk.find? q = d.find? q

theorem failure_eq_none :
    failure paths jobs d slot = none ↔ (jobs slot).fault (paths.path slot) d = none :=
  Option.map_eq_none_iff

theorem failure_eq_some {e : ArtifactError} : failure paths jobs d slot = some e ↔
    ∃ f, (jobs slot).fault (paths.path slot) d = some f ∧ e = ⟨(paths.path slot).text, f⟩ := by
  rw [failure, Option.map_eq_some_iff]
  exact exists_congr fun f => and_congr_right fun _ => eq_comm

/-- A thread that has finished has come to what its job comes to alone. -/
theorem Threads.Holds.stage_eq (h : s.Holds out paths jobs d)
    (hfinished : (s.stage slot).IsFinished) :
    s.stage slot = ((jobs slot).alone (paths.path slot) d).1 ∧
      s.disk.find? ((paths.path slot).place d.current) =
        ((jobs slot).alone (paths.path slot) d).2.find? ((paths.path slot).place d.current) := by
  obtain ⟨k, halike⟩ := h.alike slot
  have hafter : ((jobs slot).after (paths.path slot) d k).1.IsFinished := halike.stage ▸ hfinished
  rw [← after_eq_alone hafter]
  exact ⟨halike.stage, halike.find⟩

theorem Threads.Holds.concludes (h : s.Holds out paths jobs d)
    (hside : SideBySide out paths d.current) (hjobs : ∀ slot, (jobs slot).IsOrdinary)
    {told : Except ArtifactError ArtifactPaths} (htold : s.told = some told) :
    s.Concludes paths jobs d told := by
  obtain ⟨hfinished, hanswer⟩ := h.told told htold
  have hends : ∀ slot, (jobs slot).Ends (paths.path slot) d
      ((jobs slot).alone (paths.path slot) d) := by
    intro slot
    obtain ⟨n, hn, hpath⟩ := hside.child slot
    exact alone_ends (hjobs slot) (hpath ▸ hside.sound.child hn.2) d
  have hstage : ∀ slot, s.stage slot = ((jobs slot).alone (paths.path slot) d).1 :=
    fun slot => (h.stage_eq (hfinished slot)).1
  have hfault : ∀ slot, (s.stage slot).raised = none ↔
      (jobs slot).fault (paths.path slot) d = none := by
    intro slot
    rw [hstage]
    exact (hends slot).raised
  have htold_eq : told = tellFirst paths (failure paths jobs d) := by
    rw [hanswer, answer]
    congr 1
    ext1 slot
    rw [hstage]
    exact (hends slot).error
  refine ⟨hfinished, hstage, hfault, fun slot hslot => ?_, ?_, fun e => ?_, htold_eq, ?_,
    fun slot => (h.stage_eq (hfinished slot)).2, h.beside⟩
  · rw [(h.stage_eq (hfinished slot)).2]
    exact (hends slot).picture ((hfault slot).mp hslot)
  · simp only [htold_eq, tellFirst_eq_ok, failure_eq_none, hfault]
  · simp only [htold_eq, tellFirst_eq_error, failure_eq_none, failure_eq_some, hfault]
    constructor
    · rintro ⟨before, slot, after, hall, ⟨f, hf, rfl⟩, hbefore⟩
      exact ⟨before, slot, after, f, hall, hbefore, hf, rfl⟩
    · rintro ⟨before, slot, after, f, hall, hbefore, hf, rfl⟩
      exact ⟨before, slot, after, hall, ⟨f, hf, rfl⟩, hbefore⟩
  · obtain ⟨k, halike⟩ := h.alike .diff
    exact halike.files.current

/-- What is told, and what is on the disk then, is the same for every run. -/
theorem Threads.Concludes.unique {told told' : Except ArtifactError ArtifactPaths}
    (hs : s.Concludes paths jobs d told) (ht : t.Concludes paths jobs d told') :
    told' = told ∧ s.disk.Same t.disk := by
  refine ⟨ht.told_eq.trans hs.told_eq.symm, ht.current.trans hs.current.symm, fun q => ?_⟩
  by_cases hq : ∀ slot, q ≠ (paths.path slot).place d.current
  · rw [ht.beside q hq, hs.beside q hq]
  · obtain ⟨slot, hslot⟩ := not_forall.mp hq
    obtain rfl := not_not.mp hslot
    rw [ht.alone slot, hs.alone slot]

/-! ### The threads of the program -/

section InTurn

variable {a b : Image} {threshold : Number.Numeric}

/-- The task of a thread. -/
def writeTask (paths : ArtifactPaths) (a b : Image) (threshold : Number.Numeric) :
    Slot → WriteTask
  | .diff => ⟨paths.diff, ((Image.compare a b threshold).mapError .cutoff).map (·.image)⟩
  | .pageA => ⟨paths.pageA, .ok a⟩
  | .pageB => ⟨paths.pageB, .ok b⟩

def writeJobs (paths : ArtifactPaths) (a b : Image) (threshold : Number.Numeric) (slot : Slot) :
    Job := .ofTask (writeTask paths a b threshold slot)

theorem map_writeTask : Slot.all.map (writeTask paths a b threshold) =
    writeTasks paths a b threshold := rfl

theorem path_writeTask (slot : Slot) :
    (writeTask paths a b threshold slot).path = paths.path slot := by
  cases slot <;> rfl

/-- Nobody calls the threads of the program off. -/
theorem isOrdinary_writeJobs (slot : Slot) : (writeJobs paths a b threshold slot).IsOrdinary := by
  apply isOrdinary_ofTask
  cases slot with
  | diff =>
    show ((Image.compare a b threshold).mapError Fault.cutoff).map (·.image) ≠ _
    cases Image.compare a b threshold <;> simp [Except.mapError, Except.map]
  | pageA => exact nofun
  | pageB => exact nofun

theorem performAll_cons (t : WriteTask) (ts : List WriteTask) (d : Disk) :
    WriteTask.performAll (t :: ts) d = ((WriteTask.performAll ts (t.perform d).1).1,
      (t.perform d).2 :: (WriteTask.performAll ts (t.perform d).1).2) := rfl

/-- A task that is performed after other ones of its directory comes to what its job comes to
alone. -/
theorem perform_among {t : WriteTask} {d' : Disk} {n : String} (hout : out.Sound) (hn : IsName n)
    (hpath : t.path = out.child n) (hfiles : FilesIn out d d')
    (hsame : d'.find? (t.path.place d.current) = d.find? (t.path.place d.current)) :
    (t.perform d').2 = ((Job.ofTask t).fault t.path d).map (⟨t.path.text, ·⟩) ∧
      FilesIn out d (t.perform d').1 ∧
      (t.perform d').1.find? (t.path.place d.current) =
        ((Job.ofTask t).alone t.path d).2.find? (t.path.place d.current) := by
  obtain ⟨herror, hdisk⟩ := perform_eq_alone t d'
  have halike : (Job.ofTask t).Alike out t.path d 3 ((Job.ofTask t).alone t.path d') := by
    rw [hpath] at hsame ⊢
    exact alike_after (Job.ofTask t) hout hn hfiles hsame 3
  have hfault : (Job.ofTask t).fault t.path d' = (Job.ofTask t).fault t.path d :=
    fault_congr (by rw [hpath, hfiles.openForWriting_eq hout hn])
  exact ⟨hfault ▸ herror, halike.files.of_same hdisk, (hdisk.find _).trans halike.find⟩

/-- Tasks that are performed one after the other each come to what their jobs come to alone. -/
theorem performAll_eq_alone {ts : List WriteTask} {d' : Disk} (hout : out.Sound)
    (hchild : ∀ t ∈ ts, ∃ n, IsName n ∧ t.path = out.child n)
    (hplaces : (ts.map (·.path.place d.current)).Nodup) (hfiles : FilesIn out d d')
    (hsame : ∀ t ∈ ts, d'.find? (t.path.place d.current) = d.find? (t.path.place d.current)) :
    (WriteTask.performAll ts d').2 =
        ts.map (fun t => ((Job.ofTask t).fault t.path d).map (⟨t.path.text, ·⟩)) ∧
      FilesIn out d (WriteTask.performAll ts d').1 ∧
      ∀ t ∈ ts, (WriteTask.performAll ts d').1.find? (t.path.place d.current) =
        ((Job.ofTask t).alone t.path d).2.find? (t.path.place d.current) := by
  induction ts generalizing d' with
  | nil => exact ⟨rfl, hfiles, by simp⟩
  | cons t ts ih =>
    simp only [List.forall_mem_cons] at hchild hsame
    rw [List.map_cons, List.nodup_cons] at hplaces
    obtain ⟨⟨n, hn, hpath⟩, hchild⟩ := hchild
    obtain ⟨herror, hmid, hown⟩ := perform_among hout hn hpath hfiles hsame.1
    have hsound : ∀ t' ∈ ts, t'.path.Sound := by
      intro t' ht'
      obtain ⟨n', hn', hpath'⟩ := hchild t' ht'
      exact hpath' ▸ hout.child hn'.2
    have hne : ∀ t' ∈ ts, t'.path.place d.current ≠ t.path.place d.current :=
      fun t' ht' heq => hplaces.1 (List.mem_map.mpr ⟨t', ht', heq⟩)
    -- the disk that the later tasks find
    have hbeside : ∀ t' ∈ ts, (t.perform d').1.find? (t'.path.place d.current) =
        d.find? (t'.path.place d.current) := by
      intro t' ht'
      rw [(perform_beside (hpath ▸ hout.child hn.2) (hfiles.current ▸ hne t' ht')).1]
      exact hsame.2 t' ht'
    obtain ⟨herrors, hlast, hfinds⟩ := ih hchild hplaces.2 hmid hbeside
    rw [performAll_cons]
    refine ⟨by rw [List.map_cons, ← herrors, ← herror], hlast, ?_⟩
    rw [List.forall_mem_cons]
    refine ⟨?_, hfinds⟩
    -- no later task has the place of this one
    rw [← hown]
    exact performAll_beside ts hsound fun t' ht' => hmid.current ▸ (hne t' ht').symm

theorem sideBySide_tasks (hside : SideBySide out paths d.current) (a b : Image)
    (threshold : Number.Numeric) :
    (∀ t ∈ writeTasks paths a b threshold, ∃ n, IsName n ∧ t.path = out.child n) ∧
      ((writeTasks paths a b threshold).map (·.path.place d.current)).Nodup := by
  rw [← map_writeTask]
  refine ⟨fun t ht => ?_, ?_⟩
  · obtain ⟨slot, -, rfl⟩ := List.mem_map.mp ht
    rw [path_writeTask]
    exact hside.child slot
  · rw [List.map_map]
    apply List.Nodup.map _ Slot.nodup_all
    intro slot slot' heq
    apply hside.apart slot slot'
    simpa only [Function.comp_apply, path_writeTask] using heq

/-- The threads of the program leave and tell what they do when they run one after the other. -/
theorem Threads.Concludes.in_turn {told : Except ArtifactError ArtifactPaths}
    (hside : SideBySide out paths d.current)
    (h : s.Concludes paths (writeJobs paths a b threshold) d told) :
    told = (match (writeArtifacts d paths a b threshold).2 with
      | some e => .error e
      | none => .ok paths) ∧ (writeArtifacts d paths a b threshold).1.Same s.disk := by
  obtain ⟨hchild, hplaces⟩ := sideBySide_tasks hside a b threshold
  obtain ⟨herrors, hfiles, hfinds⟩ := performAll_eq_alone hside.sound hchild hplaces
    (.refl out d) fun _ _ => rfl
  refine ⟨?_, h.current.trans hfiles.current.symm, fun q => ?_⟩
  · rw [h.told_eq, writeArtifacts, tellFirst]
    simp only [herrors]
    rw [← map_writeTask, List.map_map, List.findSome?_map]
    rfl
  · by_cases hq : ∀ slot, q ≠ (paths.path slot).place d.current
    · rw [h.beside q hq, writeArtifacts_disk, performAll_beside]
      · intro t ht
        obtain ⟨n, hn, hpath⟩ := hchild t ht
        exact hpath ▸ hside.sound.child hn.2
      · intro t ht
        rw [← map_writeTask] at ht
        obtain ⟨slot, -, rfl⟩ := List.mem_map.mp ht
        rw [path_writeTask]
        exact hq slot
    · obtain ⟨slot, hslot⟩ := not_forall.mp hq
      obtain rfl := not_not.mp hslot
      have hmem : writeTask paths a b threshold slot ∈ writeTasks paths a b threshold :=
        List.mem_map_of_mem slot.mem_all
      have hfind := hfinds _ hmem
      rw [path_writeTask] at hfind
      rw [h.alone slot, writeArtifacts_disk, hfind]
      rfl

end InTurn

/-! ### Any order -/

/-- **Three pictures at once.**  The three threads of a mismatch may fail in any way but that they
are called off, and may take their steps in any order.  From every state on, it is told in the end,
and no run goes on for ever.  When it is told, all threads have finished, each with what it comes to
alone, the pictures that could be written are in their places, and what is told is the three paths,
or the fault of the first job in the order of the pictures that has failed, with the path of its
file.  This and the disk are the same for every order, and for the threads of the program the same
as when they run one after the other. -/
theorem written_in_any_order (hout : out.Sound)
    (hpaths : ArtifactPaths.ofTest out name urlA urlB = .ok paths) (hapart : paths.toList.Nodup)
    (hjobs : ∀ slot, (jobs slot).IsOrdinary) (d : Disk) :
    (∀ s, Threads.ComesTo paths jobs d s → ∃ t told,
      Relation.ReflTransGen (Threads.Step paths jobs) s t ∧ t.told = some told) ∧
    (∀ run : ℕ → Threads, run 0 = { disk := d } →
      ¬ ∀ i, Threads.Step paths jobs (run i) (run (i + 1))) ∧
    (∀ s told, Threads.ComesTo paths jobs d s → s.told = some told →
      s.Concludes paths jobs d told) ∧
    (∀ s t told told', Threads.ComesTo paths jobs d s → Threads.ComesTo paths jobs d t →
      s.told = some told → t.told = some told' → told' = told ∧ s.disk.Same t.disk) ∧
    (∀ a b threshold s told, jobs = writeJobs paths a b threshold →
      Threads.ComesTo paths jobs d s → s.told = some told →
      told = (match (writeArtifacts d paths a b threshold).2 with
        | some e => .error e
        | none => .ok paths) ∧ (writeArtifacts d paths a b threshold).1.Same s.disk) := by
  have hside := sideBySide_of_artifacts hout hpaths hapart d.current
  have hconcludes : ∀ s told, Threads.ComesTo paths jobs d s → s.told = some told →
      s.Concludes paths jobs d told :=
    fun s told hs htold => (hs.holds hside).concludes hside hjobs htold
  refine ⟨?_, ?_, hconcludes, ?_, ?_⟩
  · exact fun s hs => (hs.holds hside).exists_told hside
  · exact fun run hstart => not_forever hside hstart
  · intro s t told told' hs ht htold htold'
    exact (hconcludes s told hs htold).unique (hconcludes t told' ht htold')
  · rintro a b threshold s told rfl hs htold
    exact (hconcludes s told hs htold).in_turn hside

/-- The difference is not even opened, and the second page breaks off. -/
def mixedJobs : Slot → Job
  | .diff => { picture := .ok black, early := some (.system "disk full") }
  | .pageA => { picture := .ok black }
  | .pageB => { picture := .ok white, late := some (.runtime "encoder crashed", [137]) }

theorem written_in_any_order_mixed : preparedDir.Sound ∧
    ArtifactPaths.ofTest preparedDir "/1" "http://a/1" "http://b/1" = .ok firstPaths ∧
    firstPaths.toList.Nodup ∧ (∀ slot, (mixedJobs slot).IsOrdinary) ∧
    (∃ s told, Threads.ComesTo firstPaths mixedJobs preparedDisk s ∧ s.told = some told) ∧
    ∀ s told, Threads.ComesTo firstPaths mixedJobs preparedDisk s → s.told = some told →
      told = .error ⟨firstPaths.diff.text, .system "disk full"⟩ ∧
      s.disk.find? firstArtifact = some (.file (.picture black)) := by
  have hpaths : ArtifactPaths.ofTest preparedDir "/1" "http://a/1" "http://b/1" =
      .ok firstPaths := by decide +kernel
  have hapart : firstPaths.toList.Nodup := by decide +kernel
  have hjobs : ∀ slot, (mixedJobs slot).IsOrdinary := by
    intro slot
    cases slot <;> constructor <;> simp [mixedJobs]
  obtain ⟨hends, -, hconcludes, -⟩ :=
    written_in_any_order sound_preparedDir hpaths hapart hjobs preparedDisk
  refine ⟨sound_preparedDir, hpaths, hapart, hjobs, ?_, fun s told hs htold => ⟨?_, ?_⟩⟩
  · obtain ⟨t, told, hrun, htold⟩ := hends _ .refl
    exact ⟨t, told, hrun, htold⟩
  · rw [(hconcludes s told hs htold).told_eq]
    rfl
  · have hfault : (mixedJobs .pageA).fault firstPaths.pageA preparedDisk = none := by
      decide +kernel
    obtain ⟨image, himage, hfind⟩ := (hconcludes s told hs htold).kept .pageA
      (((hconcludes s told hs htold).fault .pageA).mpr hfault)
    obtain rfl : black = image := Except.ok.inj himage
    exact hfind

end PageDiff.Run
