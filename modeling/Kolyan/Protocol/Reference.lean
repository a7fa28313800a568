/-
# Server-sent events, and that the decoder does not depend on chunking

The reference reads a whole byte string: its lines end at LF, CR or CRLF (`lines`),
each line before the first one that is not UTF-8 is a text (`texts`), and the texts up
to each empty one are a frame.  A frame is read field by field (`values`): it is an
event when it has data, a kind, a retry time, or an id, its own or an earlier one
(`Frame.event`), and what follows the last empty line is dropped (`events`).

The decoder takes its bytes one at a time (`step`), so that how they are cut makes no
difference, and its state after some bytes is what the reference has left of them
(`feed_eq`).  The two reports of an error, by `push` and by `take_error`, are one
(`pushFrom_eq`).
-/

import Kolyan.Lib.Feeding
import Kolyan.Protocol.Sse

namespace Kolyan
namespace Sse

open Feeding

section Reference

/-- The lines that end in the bytes, and what follows the last one; `line` is what the
first line starts with. -/
def lines (line : List UInt8) : List UInt8 → List (List UInt8) × List UInt8
  | [] => ([], line)
  | [b] => if b = lf ∨ b = cr then ([line], []) else ([], line ++ [b])
  | b :: b' :: bytes =>
      if b = cr ∧ b' = lf then ((lines [] bytes).map (line :: ·) id)
      else if b = lf ∨ b = cr then ((lines [] (b' :: bytes)).map (line :: ·) id)
      else lines (line ++ [b]) (b' :: bytes)

example : lines [] [97, 13, 10, 98, 13, 13, 99] = ([[97], [98], []], [99]) := by decide

/-- The texts of lines, up to the first that is not UTF-8. -/
def texts : List (List UInt8) → List String × Except DecodeError Unit
  | [] => ([], .ok ())
  | line :: rest =>
      match fromUtf8 line with
      | .error error => ([], .error (.utf8 error))
      | .ok text => (texts rest).map (text :: ·) id

/-- The field of a line; a comment has none. -/
def fieldOf (text : String) : Option (String × String) :=
  if text.toList.head? = some ':' then none
  else some (.ofList (splitField text.toList).1, .ofList (splitField text.toList).2)

/-- The values that the lines of a frame give a field. -/
def values (field : String) (frame : List String) : List String :=
  ((frame.filterMap fieldOf).filter (·.1 = field)).map (·.2)

/-- The kind of a frame. -/
def kindOf (frame : List String) : String := (values "event" frame).getLast?.getD ""

/-- The id that holds after a frame. -/
def idAfter (id : String) (frame : List String) : String :=
  ((values "id" frame).filter fun value => '\x00' ∉ value.toList).getLast?.getD id

/-- The retry time of a frame. -/
def retryOf (frame : List String) : Option ℤ :=
  ((values "retry" frame).filterMap fun value => parseI64 (trim value.toList)).getLast?

/-- The event of a frame, after the id of the frames before it. -/
def eventOf (id : String) (frame : List String) : Option Event :=
  if values "data" frame ≠ [] ∨ kindOf frame ≠ "" ∨ idAfter id frame ≠ "" ∨ (retryOf frame).isSome then
    some ⟨kindOf frame, "\n".intercalate (values "data" frame)⟩
  else none

/-- The events of texts, after the id of earlier frames and the first lines of a frame. -/
def events (id : String) (frame : List String) : List String → List Event
  | [] => []
  | text :: rest =>
      if text = "" then (eventOf id frame).toList ++ events (idAfter id frame) [] rest
      else events id (frame ++ [text]) rest

/-- **The reference parse** of a whole byte string. -/
def reference (bytes : List UInt8) : List Event × Except DecodeError Unit :=
  let (ended, rest) := lines [] bytes
  let (read, outcome) := texts ended
  (events "" [] read, outcome.bind fun _ => (texts [rest]).2)

end Reference

section Steps

/-- One byte, without the deferral of errors. -/
def Decoder.step (d : Decoder) (byte : UInt8) : Except DecodeError (Decoder × List Event) :=
  if d.afterCr = true ∧ byte = lf then .ok ({ d with afterCr := false }, [])
  else if byte ≠ lf ∧ byte ≠ cr then .ok ({ d with afterCr := false, line := d.line ++ [byte] }, [])
  else
    match fromUtf8 d.line with
    | .error error => .error (.utf8 error)
    | .ok text =>
        let (next, event) := ({ d with afterCr := byte = cr, line := [] } : Decoder).readLine text
        .ok (next, event.toList)

variable {d d' : Decoder} {before as : List Event} {bytes : List UInt8} {e : DecodeError}

theorem pushFrom_cons (byte : UInt8) : d.pushFrom before (byte :: bytes) =
    match d.step byte with
    | .ok (next, more) => next.pushFrom (before ++ more) bytes
    | .error error =>
        let next : Decoder := { d with afterCr := byte = cr, line := [] }
        if before = [] then (.error error, next)
        else (.ok before, { next with deferredError := some error }) := by
  rw [Decoder.pushFrom, Decoder.step]
  by_cases hskip : d.afterCr = true ∧ byte = lf
  · simp only [if_pos hskip, List.append_nil]
  · rw [if_neg hskip, if_neg hskip]
    by_cases hother : byte ≠ lf ∧ byte ≠ cr
    · simp only [if_pos hother, List.append_nil]
    · rw [if_neg hother, if_neg hother]
      generalize fromUtf8 d.line = text
      cases text <;> rfl

theorem pushFrom_ok (h : feed Decoder.step d bytes = (as, .ok d')) :
    d.pushFrom before bytes = (.ok (before ++ as), d') := by
  induction bytes generalizing d before as with
  | nil =>
    obtain ⟨rfl, rfl⟩ : [] = as ∧ d = d' := by simpa [feed] using h
    simp [Decoder.pushFrom]
  | cons byte bytes ih =>
    rw [pushFrom_cons]
    rw [feed] at h
    cases hstep : d.step byte with
    | error error => simp [hstep] at h
    | ok r =>
      simp only [hstep, Prod.map, Prod.mk.injEq] at h ⊢
      obtain ⟨rfl, hrest⟩ := h
      rw [ih (Prod.ext rfl hrest), List.append_assoc]

/-- **An error is reported once**: at once if no event was decoded before it in this push,
and deferred otherwise. -/
theorem pushFrom_error (before : List Event) (h : feed Decoder.step d bytes = (as, .error e)) :
    ∃ d', (before ++ as = [] ∧ d.pushFrom before bytes = (.error e, d')) ∨
      d.pushFrom before bytes = (.ok (before ++ as), { d' with deferredError := some e }) := by
  induction bytes generalizing d before as with
  | nil => simp [feed] at h
  | cons byte bytes ih =>
    rw [pushFrom_cons]
    rw [feed] at h
    cases hstep : d.step byte with
    | error error =>
      obtain ⟨rfl, rfl⟩ : [] = as ∧ error = e := by simpa [hstep] using h
      refine ⟨{ d with afterCr := byte = cr, line := [] }, ?_⟩
      rw [List.append_nil]
      by_cases hnil : before = []
      · exact Or.inl ⟨hnil, if_pos hnil⟩
      · exact Or.inr (if_neg hnil)
    | ok r =>
      simp only [hstep, Prod.map, Prod.mk.injEq] at h ⊢
      obtain ⟨rfl, hrest⟩ := h
      obtain ⟨d', hd'⟩ := ih (before ++ r.2) (Prod.ext rfl hrest)
      exact ⟨d', by simpa [List.append_assoc] using hd'⟩

theorem setField_rest (field value : String) :
    (d.setField field value).line = d.line ∧ (d.setField field value).afterCr = d.afterCr ∧
      (d.setField field value).deferredError = d.deferredError := by
  unfold Decoder.setField
  split
  · exact ⟨rfl, rfl, rfl⟩
  split
  · exact ⟨rfl, rfl, rfl⟩
  split
  · exact ⟨rfl, rfl, rfl⟩
  split
  · split <;> exact ⟨rfl, rfl, rfl⟩
  · exact ⟨rfl, rfl, rfl⟩

theorem readLine_rest (text : String) :
    (d.readLine text).1.line = d.line ∧ (d.readLine text).1.afterCr = d.afterCr ∧
      (d.readLine text).1.deferredError = d.deferredError := by
  unfold Decoder.readLine
  split
  · exact ⟨rfl, rfl, rfl⟩
  split
  · exact ⟨rfl, rfl, rfl⟩
  · exact setField_rest _ _

theorem step_deferred {byte : UInt8} (h : d.step byte = .ok (d', as)) :
    d'.deferredError = d.deferredError := by
  rw [Decoder.step] at h
  split at h
  · obtain ⟨rfl, rfl⟩ := Prod.mk.inj (Except.ok.inj h)
    rfl
  split at h
  · obtain ⟨rfl, rfl⟩ := Prod.mk.inj (Except.ok.inj h)
    rfl
  · split at h
    · simp at h
    · obtain ⟨rfl, rfl⟩ := Prod.mk.inj (Except.ok.inj h)
      exact (readLine_rest _).2.2

theorem feed_deferred (h : feed Decoder.step d bytes = (as, .ok d')) :
    d'.deferredError = d.deferredError := by
  induction bytes generalizing d as with
  | nil =>
    obtain ⟨rfl, rfl⟩ : [] = as ∧ d = d' := by simpa [feed] using h
    rfl
  | cons byte bytes ih =>
    rw [feed] at h
    cases hstep : d.step byte with
    | error error => simp [hstep] at h
    | ok r =>
      simp only [hstep, Prod.map, Prod.mk.injEq] at h
      rw [ih (Prod.ext rfl h.2), step_deferred hstep]

theorem consume_eq (hd : d.deferredError = none) (chunks : List (List UInt8)) :
    d.consume chunks =
      match feed Decoder.step d chunks.flatten with
      | (as, .error e) => (as, .error e)
      | (as, .ok d') => (as, d'.finish.1) := by
  rw [← feedPieces_eq]
  induction chunks generalizing d with
  | nil => rfl
  | cons chunk chunks ih =>
    rw [Decoder.consume, feedPieces, Decoder.push]
    rcases hchunk : feed Decoder.step d chunk with ⟨as, e | d'⟩
    · obtain ⟨d', ⟨hnil, hpush⟩ | hpush⟩ := pushFrom_error [] hchunk
      · obtain rfl : as = [] := by simpa using hnil
        rw [hpush]
      · rw [hpush]
        rfl
    · have hd' : d'.deferredError = none := (feed_deferred hchunk).trans hd
      rw [pushFrom_ok hchunk]
      have htake : d'.takeError = (none, d') := by
        cases d'
        simp_all [Decoder.takeError]
      simp only [htake, List.nil_append]
      rw [ih hd']
      rcases feedPieces Decoder.step d' chunks with ⟨more, e | d''⟩
      · rfl
      · rfl

end Steps

section Frames

variable {d : Decoder} {id text name value : String} {frame : List String}

/-- The decoder holds the fields of the lines of a frame, after an earlier id. -/
structure Decoder.Holds (d : Decoder) (id : String) (frame : List String) : Prop where
  kind : d.kind = kindOf frame
  data : d.data = values "data" frame
  lastEventId : d.lastEventId = idAfter id frame
  retry : d.retry = retryOf frame

theorem values_comment (frame : List String) (h : fieldOf text = none) (field : String) :
    values field (frame ++ [text]) = values field frame := by
  simp [values, List.filterMap_append, h]

theorem values_field (frame : List String) (h : fieldOf text = some (name, value)) (field : String) :
    values field (frame ++ [text]) = values field frame ++ if name = field then [value] else [] := by
  by_cases hname : name = field <;> simp [values, List.filterMap_append, h, hname]

theorem Decoder.Holds.setField (h : d.Holds id frame) (hfield : fieldOf text = some (name, value)) :
    (d.setField name value).Holds id (frame ++ [text]) := by
  have hvalues := values_field frame hfield
  unfold Decoder.setField
  by_cases hevent : name = "event"
  · rw [if_pos hevent]
    subst hevent
    exact ⟨by simp [kindOf, hvalues], by simp [hvalues, h.data], by simp [idAfter, hvalues, h.lastEventId],
      by simp [retryOf, hvalues, h.retry]⟩
  rw [if_neg hevent]
  have hkind : kindOf (frame ++ [text]) = d.kind := by simp [kindOf, hvalues, hevent, h.kind]
  by_cases hdata : name = "data"
  · rw [if_pos hdata]
    subst hdata
    exact ⟨hkind.symm, by simp [hvalues, h.data], by simp [idAfter, hvalues, h.lastEventId],
      by simp [retryOf, hvalues, h.retry]⟩
  rw [if_neg hdata]
  have hdatas : values "data" (frame ++ [text]) = d.data := by simp [hvalues, hdata, h.data]
  by_cases hid : name = "id" ∧ '\x00' ∉ value.toList
  · rw [if_pos hid]
    obtain ⟨rfl, hnul⟩ := hid
    exact ⟨hkind.symm, hdatas.symm, by simp [idAfter, hvalues, hnul], by simp [retryOf, hvalues, h.retry]⟩
  rw [if_neg hid]
  have hids : idAfter id (frame ++ [text]) = d.lastEventId := by
    rw [h.lastEventId, idAfter, hvalues]
    by_cases hname : name = "id"
    · have hnul : '\x00' ∈ value.toList := by simpa [hname] using hid
      simp [idAfter, hname, hnul]
    · simp [idAfter, hname]
  by_cases hretry : name = "retry"
  · rw [if_pos hretry]
    subst hretry
    cases hparse : parseI64 (trim value.toList) with
    | none => exact ⟨hkind.symm, hdatas.symm, hids.symm, by simp [retryOf, hvalues, hparse, h.retry]⟩
    | some retry => exact ⟨hkind.symm, hdatas.symm, hids.symm, by simp [retryOf, hvalues, hparse]⟩
  rw [if_neg hretry]
  exact ⟨hkind.symm, hdatas.symm, hids.symm, by simp [retryOf, hvalues, hretry, h.retry]⟩

theorem Decoder.Holds.readLine (h : d.Holds id frame) (htext : text ≠ "") :
    (d.readLine text).2 = none ∧ (d.readLine text).1.Holds id (frame ++ [text]) := by
  rw [Decoder.readLine, if_neg htext]
  by_cases hcomment : text.toList.head? = some ':'
  · rw [if_pos hcomment]
    have hvalues := values_comment frame (if_pos hcomment : fieldOf text = none)
    exact ⟨rfl, by simp [kindOf, hvalues, h.kind], by simp [hvalues, h.data],
      by simp [idAfter, hvalues, h.lastEventId], by simp [retryOf, hvalues, h.retry]⟩
  · rw [if_neg hcomment]
    exact ⟨rfl, h.setField (if_neg hcomment)⟩

/-- **An empty line ends the frame with its event**, and the next frame starts. -/
theorem Decoder.Holds.dispatch (h : d.Holds id frame) :
    (d.readLine "").2 = eventOf id frame ∧ (d.readLine "").1.Holds (idAfter id frame) [] := by
  rw [Decoder.readLine, if_pos rfl]
  refine ⟨?_, rfl, rfl, ?_, rfl⟩
  · simp only [Decoder.dispatch, eventOf, h.kind, h.data, h.lastEventId, h.retry]
  · exact h.lastEventId

end Frames

section Lines

variable {d : Decoder} {known : String} {frame : List String} {line bytes : List UInt8} {byte : UInt8}

/-- The bytes after a CR, whose terminator an LF still belongs to. -/
def skipLf (afterCr : Bool) (bytes : List UInt8) : List UInt8 :=
  if afterCr = true ∧ bytes.head? = some lf then bytes.tail else bytes

theorem lines_other (h : byte ≠ lf ∧ byte ≠ cr) :
    lines line (byte :: bytes) = lines (line ++ [byte]) bytes := by
  cases bytes with
  | nil => simp [lines, h.1, h.2]
  | cons next bytes => simp [lines, h.1, h.2]

theorem lines_end (h : byte = lf ∨ byte = cr) :
    lines line (byte :: bytes) = (lines [] (skipLf (byte = cr) bytes)).map (line :: ·) id := by
  cases bytes with
  | nil => simp [lines, h, skipLf]
  | cons next bytes =>
    by_cases hcrlf : byte = cr ∧ next = lf
    · simp [lines, hcrlf, skipLf]
    · rw [lines, if_neg hcrlf, if_pos h, skipLf, if_neg (by simpa using hcrlf)]

theorem texts_cons_ok {text : String} {rest : List (List UInt8)} (h : fromUtf8 line = .ok text) :
    texts (line :: rest) = (texts rest).map (text :: ·) id := by
  simp [texts, h]

theorem texts_cons_error {error : Utf8Error} {rest : List (List UInt8)}
    (h : fromUtf8 line = .error error) : texts (line :: rest) = ([], .error (.utf8 error)) := by
  simp [texts, h]

/-- What a decoder with the line, the frame and the known id so far must do with lines
and what follows them: yield the events, and stop at the error or hold the rest. -/
def Agrees (known : String) (frame : List String) (split : List (List UInt8) × List UInt8)
    (fed : List Event × Except DecodeError Decoder) : Prop :=
  fed.1 = events known frame (texts split.1).1 ∧
    match (texts split.1).2 with
    | .error e => fed.2 = .error e
    | .ok () => ∃ d', fed.2 = .ok d' ∧ d'.line = split.2 ∧ d'.deferredError = none

theorem feed_agrees (bytes : List UInt8) (h : d.Holds known frame) (hd : d.deferredError = none) :
    Agrees known frame (lines d.line (skipLf d.afterCr bytes)) (feed Decoder.step d bytes) := by
  induction bytes generalizing d known frame with
  | nil =>
    have hskip : skipLf d.afterCr [] = [] := by simp [skipLf]
    rw [hskip]
    exact ⟨rfl, d, rfl, rfl, hd⟩
  | cons byte bytes ih =>
    rw [feed, Decoder.step]
    by_cases hskip : d.afterCr = true ∧ byte = lf
    · -- the LF of a CRLF
      rw [if_pos hskip]
      have hbytes : skipLf d.afterCr (byte :: bytes) = bytes := by simp [skipLf, hskip]
      have hnext := ih (d := { d with afterCr := false }) ⟨h.kind, h.data, h.lastEventId, h.retry⟩ hd
      rw [hbytes]
      simpa [skipLf, Agrees] using hnext
    · rw [if_neg hskip]
      have hbytes : skipLf d.afterCr (byte :: bytes) = byte :: bytes := by
        rw [skipLf, if_neg]
        simpa using hskip
      rw [hbytes]
      by_cases hother : byte ≠ lf ∧ byte ≠ cr
      · rw [if_pos hother, lines_other hother]
        have hnext := ih (d := { d with afterCr := false, line := d.line ++ [byte] })
          ⟨h.kind, h.data, h.lastEventId, h.retry⟩ hd
        simpa [skipLf, Agrees] using hnext
      · rw [if_neg hother, lines_end (by simpa [or_iff_not_imp_left] using hother)]
        cases htext : fromUtf8 d.line with
        | error error =>
          simp only [Agrees, Prod.map_fst]
          rw [texts_cons_error htext]
          exact ⟨rfl, rfl⟩
        | ok text =>
          have hfresh : ({ d with afterCr := byte = cr, line := [] } : Decoder).Holds known frame :=
            ⟨h.kind, h.data, h.lastEventId, h.retry⟩
          obtain ⟨hline, hcr, hdeferred⟩ :=
            readLine_rest (d := { d with afterCr := byte = cr, line := [] }) text
          simp only [Agrees, Prod.map_fst, Prod.map_snd, texts_cons_ok htext, id]
          by_cases hempty : text = ""
          · subst hempty
            obtain ⟨hevent, hholds⟩ := hfresh.dispatch
            obtain ⟨hevents, hend⟩ := ih hholds (hdeferred.trans hd)
            rw [hline, hcr] at hevents hend
            rw [events, if_pos rfl, hevent, hevents]
            exact ⟨rfl, hend⟩
          · obtain ⟨hevent, hholds⟩ := hfresh.readLine hempty
            obtain ⟨hevents, hend⟩ := ih hholds (hdeferred.trans hd)
            rw [hline, hcr] at hevents hend
            rw [events, if_neg hempty, hevent, hevents]
            exact ⟨rfl, hend⟩

theorem Decoder.Holds.default : Decoder.default.Holds "" [] := ⟨rfl, rfl, rfl, rfl⟩

theorem texts_singleton (line : List UInt8) (h : d.line = line) (hd : d.deferredError = none) :
    d.finish.1 = (texts [line]).2 := by
  subst h
  rw [Decoder.finish, texts]
  cases fromUtf8 d.line with
  | error error => rfl
  | ok text => simp [Decoder.takeError, hd, texts]

/-- **Decoding does not depend on chunking, and is the reference parse.**  However a byte
string is cut into pushes, a consumer that takes the events of each push, then the
deferred error, and finishes the decoder at the end, sees the events of the whole string
and then its first error or a clean end. -/
theorem consume_eq_reference (chunks : List (List UInt8)) :
    Decoder.default.consume chunks = reference chunks.flatten := by
  rw [consume_eq rfl]
  have h := feed_agrees chunks.flatten Decoder.Holds.default rfl
  have hskip : skipLf Decoder.default.afterCr chunks.flatten = chunks.flatten := by
    simp [skipLf, Decoder.default]
  rw [hskip] at h
  obtain ⟨hevents, hend⟩ := h
  rw [reference]
  change _ = (events "" [] (texts (lines [] chunks.flatten).1).1,
    (texts (lines [] chunks.flatten).1).2.bind fun _ => (texts [(lines [] chunks.flatten).2]).2)
  rw [← show Decoder.default.line = [] from rfl]
  generalize texts (lines Decoder.default.line chunks.flatten).1 = read at hevents hend ⊢
  obtain ⟨read, outcome⟩ := read
  cases hfed : feed Decoder.step Decoder.default chunks.flatten with
  | mk fed result =>
    rw [hfed] at hevents hend
    cases outcome with
    | error e =>
      obtain rfl : result = .error e := hend
      exact Prod.ext hevents rfl
    | ok u =>
      obtain ⟨d', rfl, hline, hdeferred⟩ := hend
      exact Prod.ext hevents (texts_singleton _ hline hdeferred)

end Lines

end Sse
end Kolyan
