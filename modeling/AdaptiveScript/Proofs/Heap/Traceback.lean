import AdaptiveScript.Proofs.Heap.Raised
import Mathlib.Data.List.FinRange

/-! # The Text of a Traceback

  The traceback that an object is given when it is first raised is put together
  by two loops. One walks the call stack from the innermost frame outwards and
  hands every frame the call site that the frame before it had recorded; the
  other one adds a line for every frame to a text, and a newline before it
  unless the text is still empty.

  Here the text is described without them, by the frames counted from the
  outermost one (`raise_renders_stack`): a header, unless it is empty, and then
  the lines of the frames from the last to the first, joined by newlines. Frame
  `i` is where frame `i + 1` was called, and the last one where the value was
  raised (`Raise.lineAt`).
-/

namespace AdaptiveScript

namespace Raise

/-! ### Joining the lines -/

theorem line_isEmpty (f : BacktraceFrame) : (line f).isEmpty = false := by
  simp [line, String.isEmpty_eq_false_iff]

theorem addLine_isEmpty (text : String) (f : BacktraceFrame) :
    (addLine text f).isEmpty = false := by
  have hline : line f ≠ "" := String.isEmpty_eq_false_iff.mp (line_isEmpty f)
  simp [addLine, String.isEmpty_eq_false_iff, hline]

/-- Only a header can be empty, so a newline stands between all lines. -/
theorem traceback_eq_intercalate (header : String) (b : Backtrace) :
    traceback header b =
      "\n".intercalate ((if header.isEmpty then [] else [header]) ++ b.map line) := by
  -- the text so far is the header of the lines that are still to come
  induction b generalizing header with
  | nil => by_cases h : header.isEmpty <;> simp_all [traceback]
  | cons f b ih =>
    have hcons : traceback header (f :: b) = traceback (addLine header f) b := rfl
    rw [hcons, ih, if_neg (by simp [addLine_isEmpty])]
    by_cases h : header.isEmpty
    · simp_all [addLine]
    · simp [addLine, h, String.append_assoc]

/-! ### Frames and locations -/

/-- The line of a frame, where the frames are counted from the outermost one and
the last one has raised a value at a location. -/
def lineAt (frames : List CallFrame) (here : Location) (i : Fin frames.length) : String :=
  let location := if h : i.val + 1 < frames.length then frames[i.val + 1].callSite else some here
  let name := if frames[i].function = ":program" then "@.script" else frames[i].function
  "\tat " ++ frames[i].source ++ location.elim "" (fun l => ":" ++ l.render) ++ " -> " ++ name ++
    "()"

end Raise

theorem Location.suffix_eq (location : Option Location) :
    Location.suffix location = location.elim "" fun l => ":" ++ l.render := by
  cases location <;> rfl

namespace CallStack

/-- A path pairs the frames, innermost first, with the current location and the
call sites. The last call site finds no frame. -/
theorem path_eq_zipWith (here : Option Location) (frames : List CallFrame) :
    path here frames = List.zipWith (fun f location => ⟨f.function, f.source, location⟩) frames
      (here :: frames.map (·.callSite)) := by
  induction frames generalizing here with
  | nil => rfl
  | cons f outer ih => rw [path, ih, List.map_cons, List.zipWith_cons_cons]

/-- Where the outermost function was called from does not matter. -/
theorem path_outermost (here : Option Location) (inner : List CallFrame) (f : CallFrame)
    (callSite : Option Location) :
    path here (inner ++ [{ f with callSite }]) = path here (inner ++ [f]) := by
  induction inner generalizing here with
  | nil => rfl
  | cons g inner ih => rw [List.cons_append, path, ih, List.cons_append, path]

/-- The `m`-th frame from the inside is where the one before it was called, and
the innermost frame is here. In the order from the outside, the one before it is
the next one. -/
theorem getElem_callSites (here : Option Location) (frames : List CallFrame) {m : Nat}
    (hm : m < frames.length) (hlocation : m < (here :: frames.map (·.callSite)).length) :
    (here :: frames.map (·.callSite))[m] =
      if h : frames.length - 1 - m + 1 < frames.length then
        frames[frames.length - 1 - (frames.length - 1 - m + 1)].callSite
      else here := by
  cases m with
  | zero => rw [dif_neg (by omega), List.getElem_cons_zero]
  | succ m =>
    have hnext : frames.length - 1 - (frames.length - 1 - (m + 1) + 1) = m := by omega
    simp only [hnext]
    rw [dif_pos (by omega), List.getElem_cons_succ, List.getElem_map]

/-- The lines of a stack are those of its frames from the last to the first. -/
theorem lines_capture (stack : CallStack) (here : Location) :
    (stack.capture (some here)).map Raise.line =
      (List.finRange stack.frames.reverse.length).reverse.map
        (Raise.lineAt stack.frames.reverse here) := by
  unfold capture
  rw [path_eq_zipWith]
  apply List.ext_getElem
  · simp
  · intro m hm hm'
    have hlt : m < stack.frames.length := by simpa using hm
    -- position `m` from the inside is the frame's own place in the reversed list
    have hplace : stack.frames.length - 1 - (stack.frames.length - 1 - m) = m := by omega
    simp only [List.getElem_map, List.getElem_zipWith, List.getElem_reverse, List.getElem_finRange,
      List.length_finRange, List.length_reverse, Fin.getElem_fin, Fin.val_cast, hplace,
      getElem_callSites _ _ hlt, Raise.lineAt, Raise.line, Location.suffix_eq]
    rfl

/-- Both loops together. -/
theorem traceback_capture (header : String) (stack : CallStack) (here : Location) :
    Raise.traceback header (stack.capture (some here)) =
      "\n".intercalate ((if header = "" then [] else [header]) ++
        (List.finRange stack.frames.reverse.length).reverse.map
          (Raise.lineAt stack.frames.reverse here)) := by
  rw [Raise.traceback_eq_intercalate, lines_capture]
  simp

end CallStack

/-! ### The first raise of an object -/

/-- A raise sees of the call stack only the path of its calls. -/
theorem raise_outermost (v : Value) (here : Location) (h : Heap) {inner : List CallFrame}
    {f : CallFrame} {callSite : Option Location} {stack stack' : CallStack}
    (hframes : stack.frames = inner ++ [f])
    (hframes' : stack'.frames = inner ++ [{ f with callSite }]) :
    Raise.raise v here stack' h = Raise.raise v here stack h := by
  have hcapture : stack'.capture (some here) = stack.capture (some here) := by
    unfold CallStack.capture
    rw [hframes, hframes', CallStack.path_outermost]
  unfold Raise.raise
  rw [hcapture]

/-- The header of an object's traceback. -/
theorem raiseHeader_object {h : Heap} {o : ObjectId} {object : Object}
    (hobject : h.get? o = some object) (message : String) :
    raiseHeader (h.className o) message =
      if message = "" then object.cls.name else object.cls.name ++ ": " ++ message := by
  simp [raiseHeader, Heap.className, hobject]

/-- What the first raise of an object returns and stores, whatever text its
traceback is. -/
theorem raise_first_parts {h : Heap} {o : ObjectId}
    (hnone : h.field? o Raise.stacktraceField = none) (here : Location) (stack : CallStack) :
    let raised := Raise.raise (.object o) here stack h
    raised.1.message = raiseHeader (h.className o) (Raise.objectMessage h o) ∧
      raised.1.traceback = some (renderedTrace h o here stack) ∧
      raised.2 = h.setField o "stacktrace" (.str (renderedTrace h o here stack)) := by
  rw [raise_first hnone]
  refine ⟨?_, rfl, rfl⟩
  show raiseHeader _ _ = raiseHeader _ _
  rw [Heap.className_setField, objectMessage_setField]

/-- The first raise of an object gives it a traceback, which the error has too:
the header, unless it is empty, and the lines of the frames from the last to the
first. The header is the message of the error. Without frames it is all there
is, and where the outermost function was called from does not matter. -/
theorem raise_renders_stack (h : Heap) {o : ObjectId} {object : Object}
    (hobject : h.get? o = some object) (hfirst : object.fields.get? "stacktrace" = none)
    (here : Location) (stack : CallStack) :
    let error := (Raise.raise (.object o) here stack h).1
    let heap := (Raise.raise (.object o) here stack h).2
    let message := Raise.objectMessage h o
    let header := if message = "" then object.cls.name else object.cls.name ++ ": " ++ message
    let frames := stack.frames.reverse
    let text := "\n".intercalate ((if header = "" then [] else [header]) ++
      (List.finRange frames.length).reverse.map (Raise.lineAt frames here))
    error.message = header ∧ error.traceback = some text ∧
      heap = h.setField o "stacktrace" (.str text) ∧
      heap.field? o "stacktrace" = some (.str text) ∧
      (frames = [] → text = header) ∧
      ∀ inner f callSite (stack' : CallStack), stack.frames = inner ++ [f] →
        stack'.frames = inner ++ [{ f with callSite }] →
        Raise.raise (.object o) here stack' h = Raise.raise (.object o) here stack h := by
  intro error heap message header frames text
  have hnone : h.field? o Raise.stacktraceField = none := by
    unfold Heap.field?
    rw [hobject]
    exact hfirst
  have hheader : raiseHeader (h.className o) message = header := raiseHeader_object hobject message
  have htext : renderedTrace h o here stack = text := by
    unfold renderedTrace
    rw [hheader, CallStack.traceback_capture]
  obtain ⟨hmessage, htraceback, hheap⟩ := raise_first_parts hnone here stack
  rw [htext] at htraceback hheap
  refine ⟨hmessage.trans hheader, htraceback, hheap, ?_, ?_, ?_⟩
  · show (Raise.raise (.object o) here stack h).2.field? o "stacktrace" = _
    rw [hheap]
    exact Heap.field?_setField_self (Array.getElem?_eq_some_iff.mp hobject).1
  · intro hframes
    have hlines : (List.finRange frames.length).reverse.map (Raise.lineAt frames here) = [] := by
      apply List.eq_nil_of_length_eq_zero
      simp [hframes]
    by_cases hempty : header = "" <;> simp [text, hlines, hempty]
  · intro inner f callSite stack' hframes hframes'
    exact raise_outermost _ here h hframes hframes'

/-- A value error with a message. -/
def valueError : Heap :=
  ⟨#[{ cls := ⟨0, "ValueError"⟩, fields := ⟨[("message", .str "bad input")]⟩ }]⟩

/-- A call of a check from the top level. -/
def checking : CallStack :=
  .ofFrames [⟨"check", "main", some ⟨9, 1⟩⟩, ⟨":program", "main", none⟩] none

/-- The value error is raised inside of the check, and the check was called by the
script. -/
theorem raise_valueError :
    (∃ object, valueError.get? 0 = some object ∧ object.fields.get? "stacktrace" = none) ∧
      (Raise.raise (.object 0) ⟨4, 5⟩ checking valueError).1.traceback =
        some "ValueError: bad input\n\tat main:4:5 -> check()\n\tat main:9:1 -> @.script()" := by
  have hget : valueError.get? 0 =
      some { cls := ⟨0, "ValueError"⟩, fields := ⟨[("message", .str "bad input")]⟩ } := rfl
  have hfirst : (⟨[("message", .str "bad input")]⟩ : Fields).get? "stacktrace" = none := by decide
  refine ⟨⟨_, hget, hfirst⟩, ?_⟩
  rw [(raise_renders_stack valueError hget hfirst ⟨4, 5⟩ checking).2.1]
  decide

end AdaptiveScript
