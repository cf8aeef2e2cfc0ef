import FirewallManager.Lib.Text
import FirewallManager.Lib.Lists

/-!
# The event stream

The agent reads the events of the manager in chunks, appends them to a buffer and takes every frame
from it that a blank line ends. `events_independent_of_chunks` says that the notifications of a
stream are those of its frames, however it is cut: `drainFrames_append` is the reason, because the
first blank line of a buffer stays the first one when the buffer grows.
-/

namespace FirewallManager

open List

/-- What reading from the stream gives: bytes, its end, or an error. -/
inductive StreamItem where
  | chunk (bytes : List UInt8)
  | closed
  | failed
  deriving DecidableEq, Repr

/-- Why the pull loop is notified. -/
inductive Wake where
  | checkIn
  | streamEnd
  deriving DecidableEq, Repr

/-- What stands before the first blank line of a buffer, and what follows it. -/
def cutFrame : List Char → Option (List Char × List Char)
  | [] => none
  | '\n' :: '\n' :: rest => some ([], rest)
  | c :: rest => (cutFrame rest).map (Prod.map (c :: ·) id)

/-- A frame is ended by the first blank line. -/
structure Cut (buf frame rest : List Char) : Prop where
  joined : buf = frame ++ '\n' :: '\n' :: rest
  first : ¬ ['\n', '\n'] <:+: frame ++ ['\n']

theorem cut_of_cutFrame {buf frame rest : List Char} (h : cutFrame buf = some (frame, rest)) :
    Cut buf frame rest := by
  induction buf using cutFrame.induct generalizing frame rest with
  | case1 => cases h
  | case2 tail =>
    cases h
    exact ⟨rfl, by decide⟩
  | case3 c tail hc ih =>
    rw [cutFrame.eq_3 c tail hc] at h
    obtain ⟨⟨front, rest'⟩, hcut, hpair⟩ := Option.map_eq_some_iff.mp h
    cases hpair
    obtain ⟨hjoined, hfirst⟩ := ih hcut
    refine ⟨by rw [hjoined]; rfl, fun hinfix => ?_⟩
    rcases infix_cons_iff.mp hinfix with hstart | hlater
    · obtain ⟨rfl, hnext⟩ := cons_prefix_cons.mp hstart
      cases front with
      | nil => exact hc _ rfl hjoined
      | cons next front =>
        obtain ⟨rfl, -⟩ := cons_prefix_cons.mp hnext
        exact hc _ rfl hjoined
    · exact hfirst hlater

theorem no_blank_of_cutFrame {buf : List Char} (h : cutFrame buf = none) :
    ¬ ['\n', '\n'] <:+: buf := by
  induction buf using cutFrame.induct with
  | case1 => simp
  | case2 tail => cases h
  | case3 c tail hc ih =>
    rw [cutFrame.eq_3 c tail hc, Option.map_eq_none_iff] at h
    intro hinfix
    rcases infix_cons_iff.mp hinfix with hstart | hlater
    · obtain ⟨rfl, rest, hrest⟩ := cons_prefix_cons.mp hstart
      exact hc rest rfl hrest.symm
    · exact ih h hlater

theorem cutFrame_append {buf frame rest : List Char} (more : List Char)
    (h : cutFrame buf = some (frame, rest)) :
    cutFrame (buf ++ more) = some (frame, rest ++ more) := by
  induction buf using cutFrame.induct generalizing frame rest with
  | case1 => cases h
  | case2 tail =>
    cases h
    rfl
  | case3 c tail hc ih =>
    rw [cutFrame.eq_3 c tail hc] at h
    obtain ⟨⟨front, rest'⟩, hcut, hpair⟩ := Option.map_eq_some_iff.mp h
    cases hpair
    have hlonger : ∀ rest, c = '\n' → tail ++ more = '\n' :: rest → False := by
      intro rest hnewline htail
      cases tail with
      | nil => cases hcut
      | cons next tail => exact hc tail hnewline (congrArg (· :: tail) (List.cons.inj htail).1)
    rw [cons_append, cutFrame.eq_3 c _ hlonger, ih hcut]
    rfl

/-- The loop over the frames that are complete, and the rest of the buffer. -/
def drainFrames (buf : List Char) : List (List Char) × List Char :=
  match _hcut : cutFrame buf with
  | none => ([], buf)
  | some (frame, rest) => ((frame :: (drainFrames rest).1), (drainFrames rest).2)
termination_by buf.length
decreasing_by
  all_goals
    rw [(cut_of_cutFrame _hcut).joined]
    simp
    omega

theorem drainFrames_of_some {buf frame rest : List Char} (h : cutFrame buf = some (frame, rest)) :
    drainFrames buf = (frame :: (drainFrames rest).1, (drainFrames rest).2) := by
  rw [drainFrames]
  split
  next hnone => cases h.symm.trans hnone
  next frame' rest' hsome =>
    cases h.symm.trans hsome
    rfl

theorem drainFrames_of_none {buf : List Char} (h : cutFrame buf = none) :
    drainFrames buf = ([], buf) := by
  rw [drainFrames]
  split
  next => rfl
  next hsome => cases h.symm.trans hsome

/-- A stream as the frames that blank lines end and a rest. -/
structure Framed (stream : List Char) (frames : List (List Char)) (tail : List Char) : Prop where
  joined : stream = frames.flatMap (· ++ ['\n', '\n']) ++ tail
  first : ∀ frame ∈ frames, ¬ ['\n', '\n'] <:+: frame ++ ['\n']
  rest : ¬ ['\n', '\n'] <:+: tail

theorem framed_drainFrames (buf : List Char) :
    Framed buf (drainFrames buf).1 (drainFrames buf).2 := by
  induction buf using drainFrames.induct with
  | case1 buf h =>
    rw [drainFrames_of_none h]
    exact ⟨rfl, nofun, no_blank_of_cutFrame h⟩
  | case2 buf frame rest h ih =>
    rw [drainFrames_of_some h]
    obtain ⟨hjoined, hfirst⟩ := cut_of_cutFrame h
    refine ⟨?_, forall_mem_cons.mpr ⟨hfirst, ih.first⟩, ih.rest⟩
    rw [hjoined, flatMap_cons, append_assoc, append_assoc, ← ih.joined]
    rfl

/-- The frames of a buffer that grows: those that were complete, and those of the rest. -/
theorem drainFrames_append (buf more : List Char) :
    (drainFrames (buf ++ more)).1 =
      (drainFrames buf).1 ++ (drainFrames ((drainFrames buf).2 ++ more)).1 := by
  induction buf using drainFrames.induct with
  | case1 buf h =>
    rw [drainFrames_of_none h]
    rfl
  | case2 buf frame rest h ih =>
    rw [drainFrames_of_some h, drainFrames_of_some (cutFrame_append more h), ih]
    rfl

theorem cutFrame_rest (buf : List Char) : cutFrame (drainFrames buf).2 = none := by
  induction buf using drainFrames.induct with
  | case1 buf h => rw [drainFrames_of_none h, h]
  | case2 buf frame rest h ih => rw [drainFrames_of_some h, ih]

/-- `parse_sse_event`. -/
def parseSseEvent (frame : List Char) : Option String :=
  (Text.lines (String.ofList frame)).foldl (fun event line =>
    if (Text.afterStart ":" line).isSome then event
    else
      match Text.afterStart "event:" line with
      | some rest => some (Text.trim rest)
      | none => event) none

/-- The last event field among the lines has the value. -/
def LastEvent (lines : List String) (value : String) : Prop :=
  ∃ before field after, lines = before ++ ("event:" ++ field) :: after ∧
    Text.trim field = value ∧ ∀ line ∈ after, Text.afterStart "event:" line = none

theorem parseSseEvent_eq_some_iff {frame : List Char} {value : String} :
    parseSseEvent frame = some value ↔ LastEvent (Text.lines (String.ofList frame)) value := by
  unfold parseSseEvent
  generalize Text.lines (String.ofList frame) = lines
  induction lines using List.reverseRecOn with
  | nil => simp [LastEvent]
  | append_singleton lines line ih =>
    rw [foldl_append, foldl_cons, foldl_nil]
    cases hline : Text.afterStart "event:" line with
    | none =>
      rw [ite_self, ih]
      constructor
      · rintro ⟨before, field, after, rfl, hvalue, hafter⟩
        refine ⟨before, field, after ++ [line], by simp, hvalue, ?_⟩
        exact forall_mem_append.mpr ⟨hafter, forall_mem_singleton.mpr hline⟩
      · rintro ⟨before, field, after, hlines, hvalue, hafter⟩
        rcases Lists.concat_eq_append_cons hlines with ⟨-, rfl⟩ | ⟨later, rfl, rfl⟩
        · cases (Text.afterStart_append "event:" field).symm.trans hline
        · exact ⟨before, field, later, rfl, hvalue, (forall_mem_append.mp hafter).1⟩
    | some rest =>
      obtain rfl := Text.eq_append_of_afterStart hline
      have hcomment : Text.afterStart ":" ("event:" ++ rest) = none := by
        rw [Text.afterStart, String.toList_append]
        rfl
      rw [hcomment]
      constructor
      · intro hrest
        exact ⟨lines, rest, [], rfl, Option.some.inj hrest, forall_mem_nil _⟩
      · rintro ⟨before, field, after, hlines, hvalue, hafter⟩
        rcases Lists.concat_eq_append_cons hlines with ⟨-, hfield⟩ | ⟨later, rfl, -⟩
        · rw [← hfield, Text.afterStart_append] at hline
          exact congrArg some ((congrArg Text.trim (Option.some.inj hline)).symm.trans hvalue)
        · have hnone := hafter _ (mem_append_right _ mem_cons_self)
          cases hline.symm.trans hnone

instance (frame : List Char) (value : String) :
    Decidable (LastEvent (Text.lines (String.ofList frame)) value) :=
  decidable_of_iff _ parseSseEvent_eq_some_iff

/-- The notifications of a stream, with the time of what was read. The decoder is `lossy`. -/
def runEventsStream (lossy : List UInt8 → List Char) :
    List Char → List (Nat × StreamItem) → List (Nat × Wake)
  | _, [] => []
  | buf, (time, .chunk bytes) :: items =>
    ((drainFrames (buf ++ lossy bytes)).1.filter (parseSseEvent · = some "check-in")).map
        (fun _ => (time, .checkIn)) ++
      runEventsStream lossy (drainFrames (buf ++ lossy bytes)).2 items
  | _, (time, .closed) :: _ => [(time, .streamEnd)]
  | _, (_, .failed) :: _ => []

/-- The decoder of the standard library, as far as it is used: ASCII bytes are characters. -/
structure LossyDecoder where
  decode : List UInt8 → List Char
  decode_ascii : ∀ bytes, (∀ byte ∈ bytes, byte.toNat < 128) →
    decode bytes = bytes.map fun byte => Char.ofNat byte.toNat

/-- A stream that arrives in chunks and is closed. -/
def chunkedStream (chunks : List (Nat × List UInt8)) (finish : Nat) : List (Nat × StreamItem) :=
  chunks.map (Prod.map id StreamItem.chunk) ++ [(finish, .closed)]

theorem runEventsStream_chunked (lossy : LossyDecoder) {buf : List Char}
    {chunks : List (Nat × List UInt8)} (finish : Nat) (hbuf : cutFrame buf = none)
    (hascii : ∀ chunk ∈ chunks, ∀ byte ∈ chunk.2, byte.toNat < 128) :
    (runEventsStream lossy.decode buf (chunkedStream chunks finish)).map Prod.snd =
      ((drainFrames (buf ++
        (chunks.flatMap Prod.snd).map fun byte => Char.ofNat byte.toNat)).1.filter
          (parseSseEvent · = some "check-in")).map (fun _ => .checkIn) ++ [.streamEnd] := by
  induction chunks generalizing buf with
  | nil =>
    rw [flatMap_nil, map_nil, append_nil, drainFrames_of_none hbuf]
    rfl
  | cons chunk chunks ih =>
    obtain ⟨time, bytes⟩ := chunk
    rw [forall_mem_cons] at hascii
    have hrest := ih (cutFrame_rest (buf ++ bytes.map fun byte => Char.ofNat byte.toNat)) hascii.2
    rw [flatMap_cons, map_append, ← append_assoc, drainFrames_append,
      filter_append, map_append, append_assoc, ← hrest, chunkedStream, map_cons,
      cons_append]
    simp [runEventsStream, lossy.decode_ascii bytes hascii.1, chunkedStream]

/-- The notifications of an ASCII stream are those of its frames, however it is cut. -/
theorem events_independent_of_chunks (lossy : LossyDecoder) {stream : List UInt8}
    (hascii : ∀ byte ∈ stream, byte.toNat < 128) :
    ∃ frames tail, Framed (stream.map fun byte => Char.ofNat byte.toNat) frames tail ∧
      ∀ chunks finish, chunks.flatMap Prod.snd = stream →
        (runEventsStream lossy.decode [] (chunkedStream chunks finish)).map Prod.snd =
          (frames.filter fun frame => LastEvent (Text.lines (String.ofList frame)) "check-in").map
            (fun _ => .checkIn) ++ [.streamEnd] := by
  refine ⟨_, _, framed_drainFrames _, fun chunks finish hchunks => ?_⟩
  have hbytes : ∀ chunk ∈ chunks, ∀ byte ∈ chunk.2, byte.toNat < 128 := by
    intro chunk hchunk byte hbyte
    exact hascii byte (hchunks ▸ mem_flatMap.mpr ⟨chunk, hchunk, hbyte⟩)
  rw [runEventsStream_chunked lossy finish rfl hbytes, hchunks, nil_append]
  simp only [parseSseEvent_eq_some_iff]

/-- The decoder that takes every byte for a character. -/
def byteDecoder : LossyDecoder where
  decode := fun bytes => bytes.map fun byte => Char.ofNat byte.toNat
  decode_ascii := fun _ _ => rfl

/-- A stream that is cut inside its blank line. -/
theorem check_in_cut_in_two :
    (runEventsStream byteDecoder.decode [] (chunkedStream
        [(1, Text.utf8 "event:check-in\n"), (2, Text.utf8 "\n: keepalive")] 3)).map Prod.snd =
      (runEventsStream byteDecoder.decode [] (chunkedStream
        [(1, Text.utf8 "event:check-in\n\n: keepalive")] 3)).map Prod.snd := by
  have hascii : ∀ byte ∈ Text.utf8 "event:check-in\n\n: keepalive", byte.toNat < 128 := by
    rw [Text.utf8, String.toList_ofList]
    simp [String.utf8EncodeChar]
  obtain ⟨frames, tail, -, hrun⟩ := events_independent_of_chunks byteDecoder hascii
  have hcut : Text.utf8 "event:check-in\n" ++ Text.utf8 "\n: keepalive" =
      Text.utf8 "event:check-in\n\n: keepalive" := by
    simp only [Text.utf8]
    repeat rw [String.toList_ofList]
    rfl
  rw [hrun _ 3 (by simpa using hcut), hrun _ 3 (flatMap_singleton ..)]

end FirewallManager
