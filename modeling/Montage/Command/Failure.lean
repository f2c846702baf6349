import Montage.Fault
/-!
# Failures — how a command reports a fault

A failure is a fault, or a refusal of the file system, together with what the
command was about when it arose. `Failure.report` is what is shown for it: the
activity, the fault and its cause in one line, and for a fault the advice of
what to try in the next.
-/

namespace Montage

/-- What a command is about. -/
inductive Activity where
  | loadingSettings (path : String)
  | repositioning
  | fittingNgon (sides : Nat) (mask : String)
  | fittingRectangle (mask : String)
  | segmenting
  | readingLandmarks (path : String)
  | writing (path : String)
  | creatingDirectory (path : String)

/-- The wording of an activity that has failed. -/
def Activity.failed : Activity → String
  | loadingSettings p => "failed to load config " ++ p
  | repositioning => "repositioning failed"
  | fittingNgon n m => "no " ++ toString n ++ "-gon fits " ++ m
  | fittingRectangle m => "no rectangle fits " ++ m
  | segmenting => "segmentation pipeline failed"
  | readingLandmarks p => "failed to read landmarks " ++ p
  | writing p => "failed to write " ++ p
  | creatingDirectory p => "failed to create output directory " ++ p

/-- What has gone wrong: a fault of an operation, or a refusal of the file
system for which there is no advice. -/
inductive Reason where
  | fault (f : Fault)
  | refused (t : FileTrouble)

/-- What has gone wrong, and what the command was about. -/
structure Failure where
  activity : Option Activity
  reason : Reason

namespace Failure

/-- The texts of a reason: its message, and that of its cause. -/
def reasonTexts : Reason → List String
  | .fault f => f.message :: f.causeMessage?.toList
  | .refused t => [t.message]

/-- The first line of a report. -/
def headline (f : Failure) : String :=
  "error: " ++ ": ".intercalate ((f.activity.map Activity.failed).toList ++ reasonTexts f.reason)

/-- What is shown for a failure. -/
def report (f : Failure) : String :=
  match f.reason with
  | .fault cause => f.headline ++ "\nhint: " ++ cause.advice.suggestion
  | .refused _ => f.headline

end Failure

/-- A fault that arose while a command was about something. -/
def during (a : Activity) : Except Fault α → Except Failure α
  | .ok v => .ok v
  | .error f => .error ⟨some a, .fault f⟩

/-- A fault that speaks for itself. -/
def unexplained : Except Fault α → Except Failure α
  | .ok v => .ok v
  | .error f => .error ⟨none, .fault f⟩

end Montage
