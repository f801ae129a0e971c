import Mathlib.Logic.Function.Iterate
import PageDiff.Proofs.Disk.Siblings
import PageDiff.Run.Artifact

/-!
# Threads that write pictures

Each of the three pictures of a mismatch is written by a thread of its own.  A thread makes its
picture, opens its file, and writes what it has made into it, and it may fail at each of these
steps.  A step asks the disk about the file of the thread alone (`next_congr`), so a thread comes as
far among the files of the other ones as it comes alone (`Job.Alike`).
-/

namespace PageDiff.Run

open PageDiff.Disk PageDiff.Path

/-! ### Jobs and their steps -/

/-- What a thread is to do: the picture that it makes, or the fault that keeps it from being made,
and what else goes wrong with saving it. -/
structure Job where
  picture : Except Fault Image
  /-- A fault before the file is opened. -/
  early : Option Fault := none
  /-- A fault after some bytes have been written. -/
  late : Option (Fault × List UInt8) := none

/-- What a thread raises: an error that tells the file, or any other fault. -/
inductive Raised
  | artifact (e : ArtifactError)
  | other (f : Fault)

/-- What saving a picture makes of a fault. -/
def raisedBySaving (path : Path) (f : Fault) : Raised :=
  if f.isSystem || f.isValue then .artifact ⟨path.text, f⟩ else .other f

/-- How far a thread has come. -/
inductive Stage
  | waiting
  | painted (image : Image)
  /-- The file is open at a place, where there was none if it has been created. -/
  | opened (place : Place) (image : Image) (created : Bool)
  | finished (raised : Option Raised)

def Stage.IsFinished (stage : Stage) : Prop := ∃ raised, stage = .finished raised

/-- What a thread has raised, if it has finished and did not succeed. -/
def Stage.raised : Stage → Option Raised
  | .finished raised => raised
  | _ => none

/-- What a step does to a disk. -/
inductive Change
  | keep
  | put (place : Place) (content : Content)
  | erase (place : Place)

def Change.on (d : Disk) : Change → Disk
  | .keep => d
  | .put place content => d.put place (.file content)
  | .erase place => d.erase place

/-- How far a thread comes with its next step, and what that does to the disk.  A file that has been
created is taken away again when writing it fails, and one that was there keeps what has been
written. -/
def Job.next (job : Job) (path : Path) (d : Disk) : Stage → Stage × Change
  | .waiting =>
    match job.picture with
    | .error f => (.finished (some (.other f)), .keep)
    | .ok image => (.painted image, .keep)
  | .painted image =>
    match job.early with
    | some f => (.finished (some (raisedBySaving path f)), .keep)
    | none =>
      match d.openForWriting path with
      | .error e => (.finished (some (raisedBySaving path (.disk e))), .keep)
      | .ok place => (.opened place image (d.find? place).isNone, .put place (.bytes []))
  | .opened place image created =>
    match job.late with
    | some (f, written) =>
      (.finished (some (raisedBySaving path f)),
        if created then .erase place else .put place (.bytes written))
    | none => (.finished none, .put place (.picture image))
  | .finished raised => (.finished raised, .keep)

def Job.step (job : Job) (path : Path) (s : Stage × Disk) : Stage × Disk :=
  ((job.next path s.2 s.1).1, (job.next path s.2 s.1).2.on s.2)

/-- The job of a task: nothing goes wrong with it but that a picture without pixels is not
written. -/
def Job.ofTask (t : WriteTask) : Job where
  picture := t.picture
  late :=
    match t.picture with
    | .ok image => if image.isEmpty then some (.emptyPicture, []) else none
    | .error _ => none

/-- A job that is alone, after some steps. -/
def Job.after (job : Job) (path : Path) (d : Disk) (k : ℕ) : Stage × Disk :=
  (job.step path)^[k] (.waiting, d)

/-- What becomes of a job that is alone, and of its disk. -/
def Job.alone (job : Job) (path : Path) (d : Disk) : Stage × Disk := job.after path d 3

/-- The fault that a job ends with on a disk: what the picture could not be made for, or the first
thing that goes wrong when it is saved. -/
def Job.fault (job : Job) (path : Path) (d : Disk) : Option Fault :=
  match job.picture with
  | .error f => some f
  | .ok _ =>
    match job.early with
    | some f => some f
    | none =>
      match d.openForWriting path with
      | .error e => some (.disk e)
      | .ok _ => job.late.map (·.1)

/-! ### Finishing -/

/-- How many steps there are at most. -/
def Stage.left : Stage → ℕ
  | .waiting => 3
  | .painted _ => 2
  | .opened .. => 1
  | .finished _ => 0

variable {job : Job} {path out : Path} {n : String} {stage : Stage} {d d' d'' : Disk} {q : Place}

theorem Stage.left_eq_zero : stage.left = 0 ↔ stage.IsFinished := by
  cases stage <;> simp [Stage.IsFinished, Stage.left]

theorem left_next (job : Job) (path : Path) (d : Disk) (stage : Stage) :
    (job.next path d stage).1.left ≤ stage.left - 1 := by
  cases stage with
  | waiting =>
    cases hpicture : job.picture <;> simp [Job.next, hpicture, Stage.left]
  | painted image =>
    cases hearly : job.early <;> cases ho : d.openForWriting path <;>
      simp [Job.next, hearly, ho, Stage.left]
  | opened place image created =>
    cases hlate : job.late <;> simp [Job.next, hlate, Stage.left]
  | finished raised => exact le_rfl

theorem step_finished {s : Stage × Disk} (h : s.1.IsFinished) : job.step path s = s := by
  obtain ⟨stage, d⟩ := s
  obtain ⟨raised, rfl⟩ := h
  rfl

theorem after_succ (job : Job) (path : Path) (d : Disk) (k : ℕ) :
    job.after path d (k + 1) = job.step path (job.after path d k) :=
  Function.iterate_succ_apply' _ _ _

theorem left_after (job : Job) (path : Path) (d : Disk) (k : ℕ) :
    (job.after path d k).1.left ≤ 3 - k := by
  induction k with
  | zero => exact le_rfl
  | succ k ih =>
    have hnext := left_next job path (job.after path d k).2 (job.after path d k).1
    rw [after_succ]
    exact hnext.trans (by omega)

/-- A job that is alone has finished after three steps. -/
theorem isFinished_alone (job : Job) (path : Path) (d : Disk) :
    (job.alone path d).1.IsFinished := by
  have hleft := left_after job path d 3
  apply Stage.left_eq_zero.mp
  exact Nat.le_zero.mp hleft

theorem after_of_isFinished {k : ℕ} (h : (job.after path d k).1.IsFinished) (j : ℕ) :
    job.after path d (k + j) = job.after path d k := by
  induction j with
  | zero => rfl
  | succ j ih => rw [← Nat.add_assoc, after_succ, ih, step_finished h]

/-- Whenever a job that is alone has finished, it has come to the same. -/
theorem after_eq_alone {k : ℕ} (h : (job.after path d k).1.IsFinished) :
    job.after path d k = job.alone path d := by
  have hthree := isFinished_alone job path d
  obtain hle | hle := Nat.le_total k 3
  · have hlater := after_of_isFinished h (3 - k)
    rw [Nat.add_sub_cancel' hle] at hlater
    exact hlater.symm
  · have hlater := after_of_isFinished hthree (k - 3)
    rw [Nat.add_sub_cancel' hle] at hlater
    exact hlater

/-! ### Files in one directory -/

/-- A file that is open has been opened where it is opened on a disk. -/
def Stage.OpenedOn (d : Disk) (path : Path) : Stage → Prop
  | .opened place _ _ => d.openForWriting path = .ok place
  | _ => True

/-- A change that is made where a file is opened on a disk, if anywhere. -/
def Change.OpenedOn (d : Disk) (path : Path) : Change → Prop
  | .keep => True
  | .put place _ => d.openForWriting path = .ok place
  | .erase place => d.openForWriting path = .ok place

/-- A step opens no other file than that of the job, and changes no other one. -/
theorem next_openedOn (job : Job) (ho : d'.openForWriting path = d.openForWriting path)
    (h : stage.OpenedOn d path) : (job.next path d' stage).1.OpenedOn d path ∧
      (job.next path d' stage).2.OpenedOn d path := by
  cases stage with
  | waiting =>
    cases hpicture : job.picture <;> simp [Job.next, hpicture, Stage.OpenedOn, Change.OpenedOn]
  | painted image =>
    cases hearly : job.early <;> cases hopen : d.openForWriting path <;>
      simp [Job.next, hearly, ho, hopen, Stage.OpenedOn, Change.OpenedOn]
  | opened place image created =>
    have hplace : d.openForWriting path = .ok place := h
    cases hlate : job.late <;> cases created <;>
      simp [Job.next, hlate, hplace, Stage.OpenedOn, Change.OpenedOn]
  | finished raised => exact ⟨trivial, trivial⟩

/-- A step asks a disk no more than where the file of the job is opened and whether it is there. -/
theorem next_congr (ho : d'.openForWriting path = d.openForWriting path)
    (hfind : ∀ place, d.openForWriting path = .ok place → d'.find? place = d.find? place)
    (stage : Stage) : job.next path d' stage = job.next path d stage := by
  cases stage with
  | painted image =>
    unfold Job.next
    simp only [ho]
    cases hopen : d.openForWriting path with
    | error e => rfl
    | ok place => simp only [hfind place hopen]
  | _ => rfl

theorem filesIn_change {change : Change} (h : FilesIn out d d') (hout : out.Sound)
    (hn : IsName n) (hchange : change.OpenedOn d (out.child n)) : FilesIn out d (change.on d') := by
  cases change with
  | keep => exact h
  | put place content => exact h.put hout hn hchange content
  | erase place => exact h.erase hout hn hchange

/-- A change does the same to a place on all disks that are the same there. -/
theorem find?_change {change : Change} (hchange : change.OpenedOn d path)
    (hfind : d'.find? q = d''.find? q) : (change.on d').find? q = (change.on d'').find? q := by
  cases change with
  | keep => exact hfind
  | put place content =>
    obtain ⟨hne, -⟩ := openForWriting_eq_ok hchange
    simp only [Change.on, find?_put _ hne, hfind]
  | erase place =>
    obtain ⟨hne, -⟩ := openForWriting_eq_ok hchange
    simp only [Change.on, find?_erase _ hne, hfind]

theorem find?_change_beside {change : Change} (hp : path.Sound)
    (hchange : change.OpenedOn d path) (hq : q ≠ path.place d.current) (d' : Disk) :
    (change.on d').find? q = d'.find? q := by
  cases change with
  | keep => rfl
  | put place content =>
    obtain ⟨hne, -, -, hplace⟩ := openForWriting_eq_ok hchange
    rw [← hplace hp] at hq
    simp only [Change.on, find?_put _ hne, if_neg hq]
  | erase place =>
    obtain ⟨hne, -, -, hplace⟩ := openForWriting_eq_ok hchange
    rw [← hplace hp] at hq
    simp only [Change.on, find?_erase _ hne, if_neg hq]

/-- Alone, a job opens no other file than its own and changes no other one. -/
theorem after_openedOn (job : Job) (hout : out.Sound) (hn : IsName n) (d : Disk) (k : ℕ) :
    FilesIn out d (job.after (out.child n) d k).2 ∧
      (job.after (out.child n) d k).1.OpenedOn d (out.child n) := by
  induction k with
  | zero => exact ⟨.refl out d, trivial⟩
  | succ k ih =>
    obtain ⟨hfiles, hopened⟩ := ih
    obtain ⟨hstage, hchange⟩ :=
      next_openedOn job (hfiles.openForWriting_eq hout hn) hopened
    rw [after_succ]
    exact ⟨filesIn_change hfiles hout hn hchange, hstage⟩

/-- A job has come as far among other files of its directory as it would alone in `k` steps, and so
has its own file. -/
structure Job.Alike (job : Job) (out path : Path) (d : Disk) (k : ℕ) (s : Stage × Disk) : Prop where
  files : FilesIn out d s.2
  stage : s.1 = (job.after path d k).1
  find : s.2.find? (path.place d.current) = (job.after path d k).2.find? (path.place d.current)

/-- Its next step is the one that it takes alone. -/
theorem Job.Alike.next_eq {k : ℕ} (h : job.Alike out (out.child n) d k (stage, d'))
    (hout : out.Sound) (hn : IsName n) : job.next (out.child n) d' stage =
      job.next (out.child n) (job.after (out.child n) d k).2 (job.after (out.child n) d k).1 := by
  obtain ⟨halone, -⟩ := after_openedOn job hout hn d k
  have ho := halone.openForWriting_eq hout hn
  obtain rfl : stage = (job.after (out.child n) d k).1 := h.stage
  apply next_congr
  · rw [ho, h.files.openForWriting_eq hout hn]
  · intro place hplace
    rw [ho] at hplace
    obtain ⟨-, -, -, heq⟩ := openForWriting_eq_ok hplace
    rw [heq (hout.child hn.2)]
    exact h.find

theorem Job.Alike.next_openedOn {k : ℕ} (h : job.Alike out (out.child n) d k (stage, d'))
    (hout : out.Sound) (hn : IsName n) :
    (job.next (out.child n) d' stage).2.OpenedOn d (out.child n) := by
  obtain ⟨halone, hopened⟩ := after_openedOn job hout hn d k
  rw [h.next_eq hout hn]
  exact (Run.next_openedOn job (halone.openForWriting_eq hout hn) hopened).2

theorem Job.Alike.step {k : ℕ} {s : Stage × Disk} (h : job.Alike out (out.child n) d k s)
    (hout : out.Sound) (hn : IsName n) :
    job.Alike out (out.child n) d (k + 1) (job.step (out.child n) s) := by
  have hchange := h.next_openedOn hout hn
  have hnext := h.next_eq hout hn
  refine ⟨filesIn_change h.files hout hn hchange, ?_, ?_⟩
  · rw [after_succ, Job.step, Job.step, hnext]
  · rw [after_succ, Job.step, Job.step, hnext]
    rw [hnext] at hchange
    exact find?_change hchange h.find

/-- So has a job on whose disk files have been written into its directory before, though not its
own. -/
theorem alike_after (job : Job) (hout : out.Sound) (hn : IsName n) (hfiles : FilesIn out d d')
    (hfind : d'.find? ((out.child n).place d.current) = d.find? ((out.child n).place d.current))
    (k : ℕ) : job.Alike out (out.child n) d k (job.after (out.child n) d' k) := by
  induction k with
  | zero => exact ⟨hfiles, rfl, hfind⟩
  | succ k ih =>
    rw [after_succ]
    exact ih.step hout hn

theorem fault_congr (ho : d'.openForWriting path = d.openForWriting path) :
    job.fault path d' = job.fault path d := by
  simp only [Job.fault, ho]

/-! ### What a job comes to -/

/-- The error that is told for what a thread has raised.  To be called off is none. -/
def Raised.error? (path : Path) : Raised → Option ArtifactError
  | .artifact e => some e
  | .other .cancelled => none
  | .other f => some ⟨path.text, f⟩

/-- A job that nobody calls off. -/
structure Job.IsOrdinary (job : Job) : Prop where
  picture : job.picture ≠ .error .cancelled
  early : job.early ≠ some .cancelled
  late : job.late.map (·.1) ≠ some .cancelled

theorem error?_other {f : Fault} (h : f ≠ .cancelled) (path : Path) :
    (Raised.other f).error? path = some ⟨path.text, f⟩ := by
  cases f <;> first | rfl | exact absurd rfl h

/-- Either way, the error tells the file and the fault. -/
theorem error?_raisedBySaving {f : Fault} (h : f ≠ .cancelled) (path : Path) :
    (raisedBySaving path f).error? path = some ⟨path.text, f⟩ := by
  unfold raisedBySaving
  split
  · rfl
  · exact error?_other h path

/-- What a job has done when it has finished alone. -/
structure Job.Ends (job : Job) (path : Path) (d : Disk) (s : Stage × Disk) : Prop where
  error : s.1.raised.bind (Raised.error? path) = (job.fault path d).map (⟨path.text, ·⟩)
  raised : s.1.raised = none ↔ job.fault path d = none
  picture : job.fault path d = none → ∃ image, job.picture = .ok image ∧
    s.2.find? (path.place d.current) = some (.file (.picture image))

theorem ends_of_raised {s : Stage × Disk} {raised : Raised} {f : Fault}
    (hs : s.1 = .finished (some raised)) (hraised : raised.error? path = some ⟨path.text, f⟩)
    (hfault : job.fault path d = some f) : job.Ends path d s := by
  refine ⟨?_, ?_, ?_⟩
  · rw [hs, hfault]
    exact hraised
  · rw [hs, hfault]
    simp [Stage.raised]
  · rw [hfault]
    simp

theorem ends_of_written {s : Stage × Disk} {image : Image} (hs : s.1 = .finished none)
    (hpicture : job.picture = .ok image) (hfault : job.fault path d = none)
    (hfind : s.2.find? (path.place d.current) = some (.file (.picture image))) :
    job.Ends path d s := by
  refine ⟨?_, ?_, fun _ => ⟨image, hpicture, hfind⟩⟩
  · rw [hs, hfault]
    rfl
  · rw [hs, hfault]
    simp [Stage.raised]

theorem alone_of_refused (job : Job) {image : Image} {e : DiskError}
    (hpicture : job.picture = .ok image) (hearly : job.early = none)
    (ho : d.openForWriting path = .error e) :
    job.alone path d = (.finished (some (raisedBySaving path (.disk e))), d) := by
  simp [Job.alone, Job.after, Job.step, Job.next, Change.on, hpicture, hearly, ho]

theorem alone_of_opened (job : Job) {image : Image} {place : Place}
    (hpicture : job.picture = .ok image) (hearly : job.early = none)
    (ho : d.openForWriting path = .ok place) :
    job.alone path d = job.step path
      (.opened place image (d.find? place).isNone, d.put place (.file (.bytes []))) := by
  simp [Job.alone, Job.after, Job.step, Job.next, Change.on, hpicture, hearly, ho]

/-- A job that nobody calls off ends with the first thing that goes wrong, told with its file, or
with its picture in its place. -/
theorem alone_ends (h : job.IsOrdinary) (hp : path.Sound) (d : Disk) :
    job.Ends path d (job.alone path d) := by
  obtain ⟨picture, early, late⟩ := job
  obtain ⟨hpicture, hearly, hlate⟩ := h
  cases picture with
  | error f =>
    have hf : f ≠ .cancelled := fun he => hpicture (by rw [he])
    exact ends_of_raised rfl (error?_other hf path) rfl
  | ok image =>
    cases early with
    | some f =>
      have hf : f ≠ .cancelled := fun he => hearly (by rw [he])
      exact ends_of_raised rfl (error?_raisedBySaving hf path) rfl
    | none =>
      cases ho : d.openForWriting path with
      | error e =>
        rw [alone_of_refused _ rfl rfl ho]
        apply ends_of_raised rfl (error?_raisedBySaving (by simp) path)
        simp [Job.fault, ho]
      | ok place =>
        obtain ⟨hne, -, -, hplace⟩ := openForWriting_eq_ok ho
        rw [alone_of_opened _ rfl rfl ho]
        cases late with
        | some late =>
          have hf : late.1 ≠ .cancelled := fun he => hlate (by rw [← he]; rfl)
          apply ends_of_raised rfl (error?_raisedBySaving hf path)
          simp [Job.fault, ho]
        | none =>
          apply ends_of_written rfl rfl
          · simp [Job.fault, ho]
          · rw [← hplace hp]
            simp [Job.step, Job.next, Change.on, find?_put _ hne]

/-! ### Tasks as jobs -/

theorem isOrdinary_ofTask {t : WriteTask} (h : t.picture ≠ .error .cancelled) :
    (Job.ofTask t).IsOrdinary := by
  refine ⟨h, nofun, ?_⟩
  unfold Job.ofTask
  cases t.picture with
  | error f => simp
  | ok image =>
    by_cases hempty : image.isEmpty = true
    · simp [hempty]
    · simp [hempty]

/-- Performing a task comes to the same as its job alone. -/
theorem perform_eq_alone (t : WriteTask) (d : Disk) :
    (t.perform d).2 = ((Job.ofTask t).fault t.path d).map (⟨t.path.text, ·⟩) ∧
      ((Job.ofTask t).alone t.path d).2.Same (t.perform d).1 := by
  obtain ⟨path, picture⟩ := t
  cases picture with
  | error f => exact ⟨rfl, rfl, fun q => rfl⟩
  | ok image =>
    cases ho : d.openForWriting path with
    | error e =>
      rw [alone_of_refused (Job.ofTask ⟨path, .ok image⟩) rfl rfl ho]
      simp only [WriteTask.perform, savePicture, Job.ofTask, Job.fault, ho]
      exact ⟨rfl, rfl, fun q => rfl⟩
    | ok place =>
      obtain ⟨hne, -, -, -⟩ := openForWriting_eq_ok ho
      rw [alone_of_opened (Job.ofTask ⟨path, .ok image⟩) rfl rfl ho]
      simp only [WriteTask.perform, savePicture, Job.ofTask, Job.fault, Job.step, Job.next, ho]
      cases hempty : image.isEmpty with
      | false => exact ⟨rfl, same_put_put hne _ _⟩
      | true =>
        -- a picture without pixels leaves nothing new, and nothing in a file that was there
        cases hfind : d.find? place with
        | none => exact ⟨rfl, same_erase_put hne hfind _⟩
        | some e => exact ⟨rfl, same_put_put hne _ _⟩

end PageDiff.Run
