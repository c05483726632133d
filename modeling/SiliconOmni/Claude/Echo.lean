import SiliconOmni.Ascii
import SiliconOmni.Claude.Stream

/-! What the echoes of written lines confirm. -/
namespace SiliconOmni.Claude

section
variable [Host] {s : Stream} {data : Value} {text : String}

/-- A replayed user line that echoes `text` verbatim: as a string, or as one block of text. -/
structure Verbatim (data : Value) (text : String) : Prop where
  user : data.str? "type" = some "user"
  replay : data.flag? "isReplay"
  content : (data.at_ "message").at_ "content" = .string text ∨
    ∃ block : Value, (data.at_ "message").at_ "content" = .array [block] ∧
      block.str? "type" = some "text" ∧ block.str? "text" = some text

theorem flattenBlock_text {block : Value} (type : block.str? "type" = some "text")
    (holds : block.str? "text" = some text) : flattenBlock block = text := by
  cases block with
  | object m =>
    have htype : (m.lookup "type").bind Value.asStr = some "text" := type
    have htext : (m.lookup "text").bind Value.asStr = some text := holds
    rw [flattenBlock, if_pos (.inl htype), htext, Option.getD_some]
  | _ => cases type

theorem flattenContent_texts {blocks : List Value} {texts : List String}
    (h : blocks.map flattenBlock = texts) :
    flattenContent (some (.array blocks)) = "\n".intercalate (texts.filter (· ≠ "")) := by
  rw [flattenContent, h]

theorem Verbatim.flatten (h : Verbatim data text) :
    flattenContent (some ((data.at_ "message").at_ "content")) = text := by
  rcases h.content with hstring | ⟨block, harray, htype, htext⟩
  · rw [hstring]
    rfl
  · have hblocks : [block].map flattenBlock = [text] := by
      rw [List.map_singleton, flattenBlock_text htype htext]
    rw [harray, flattenContent_texts hblocks]
    by_cases hempty : text = ""
    · subst hempty
      rfl
    · rw [List.filter_cons_of_pos (by simpa using hempty)]
      rfl

theorem Verbatim.replayEcho (h : Verbatim data text) : replayEcho data = !chatter text := by
  have hresult : (((data.at_ "message").at_ "content").asArray.any fun blocks =>
      blocks.any fun block => decide (block.str? "type" = some "tool_result")) = false := by
    rcases h.content with hstring | ⟨block, harray, htype, -⟩
    · rw [hstring]
      rfl
    · rw [harray]
      simp [Value.asArray, htype]
  unfold Claude.replayEcho
  dsimp only
  rw [h.replay, h.flatten, hresult]
  cases chatter text <;> rfl

omit [Host] in
theorem Verbatim.texts (h : Verbatim data text) :
    Stream.replayTexts ((data.at_ "message").at_ "content") = some [text] := by
  rcases h.content with hstring | ⟨block, harray, htype, htext⟩
  · rw [hstring]
    rfl
  · rw [harray, Stream.replayTexts]
    simp [htype, htext]

omit [Host] in
theorem sameMessage_self (text : String) : sameMessage text text := by
  rw [sameMessage, if_pos rfl]

/-- The event that confirms the line at the head of the queue by its own echo. -/
def Stream.confirmation (s : Stream) (text : String) : Event :=
  ((((Event.new .confirmed).saying text).with_ CONFIRMED_AS
    (.string (if s.turnOpen then EventType.injected else .start).name)).from_ NAME).about s.model

omit [Host] in
theorem replayed_verbatim (h : Verbatim data text) {rest : List String}
    (head : s.expected = text :: rest) :
    s.replayed data = ([s.confirmation text], { s with expected := rest, turnOpen := true }) := by
  have hfirst : Stream.matchesAt (text :: rest) [text] 0 = true := by
    simp [Stream.matchesAt, sameMessage_self]
  have hfind : (List.range ((text :: rest).length - [text].length + 1)).find?
      (Stream.matchesAt (text :: rest) [text]) = some 0 := by
    rw [List.range_succ_eq_map, List.find?_cons, hfirst]
  unfold Stream.replayed
  rw [h.texts, head]
  dsimp only
  rw [if_neg (by simp), hfind]
  dsimp only
  rw [List.length_singleton, Nat.zero_add, Stream.confirm, head]
  simp [Stream.confirm, Stream.confirmation]

/-- Feeding a verbatim echo of the line at the head of the queue confirms that line and no other,
exactly when the line does not read as output of the control channel. -/
theorem verbatim_echo_confirms_iff (s : Stream) (text : String) (rest : List String)
    (data : Value) (head : s.expected = text :: rest) (echo : Verbatim data text) :
    ((∃ e, (s.feed (some data)).1 = [e] ∧ e.eventType = .confirmed ∧ e.text = text) ∧
        (s.feed (some data)).2.expected = rest) ↔
      chatter text = false := by
  have hfeed : s.feed (some data) = if chatter text then ([], s) else s.replayed data := by
    rw [Stream.feed_user echo.user, Stream.user, echo.replayEcho]
    cases chatter text with
    | false => rfl
    | true =>
      rcases echo.content with hstring | ⟨block, harray, htype, -⟩
      · rw [hstring]
        rfl
      · rw [harray]
        simp [Value.asArray, Stream.results, Stream.result, htype]
  rw [hfeed]
  cases chatter text with
  | true =>
    refine iff_of_false ?_ Bool.noConfusion
    rintro ⟨⟨e, he, -⟩, -⟩
    exact absurd he.symm (List.cons_ne_nil _ _)
  | false =>
    refine iff_of_true ?_ rfl
    rw [if_neg Bool.false_ne_true, replayed_verbatim echo head]
    exact ⟨⟨_, rfl, rfl, rfl⟩, rfl⟩

end

section samples
attribute [local instance] Host.ascii

/-- The echo of a text as one block. -/
def echoLine (text : String) : Value :=
  .object [("type", .string "user"), ("isReplay", .bool true),
    ("message", .object [("content", .array [.object [("type", .string "text"),
      ("text", .string text)]])])]

theorem echoLine_verbatim (text : String) : Verbatim (echoLine text) text :=
  ⟨rfl, rfl, .inr ⟨_, rfl, rfl, rfl⟩⟩

/-- A message that reads like Claude's own notice of an interrupt is never confirmed. -/
theorem notice_echo_lost :
    ¬((∃ e, (({ expected := [INTERRUPTED] } : Stream).feed (some (echoLine INTERRUPTED))).1 = [e] ∧
        e.eventType = .confirmed ∧ e.text = INTERRUPTED) ∧
      (({ expected := [INTERRUPTED] } : Stream).feed (some (echoLine INTERRUPTED))).2.expected =
        []) := by
  have hfeed : (({ expected := [INTERRUPTED] } : Stream).feed
      (some (echoLine INTERRUPTED))).1 = [] := by decide +kernel
  rintro ⟨⟨e, he, -⟩, -⟩
  rw [hfeed] at he
  exact absurd he.symm (List.cons_ne_nil _ _)

theorem verbatim_echo_confirms_iff_hello :
    ((∃ e, (({ expected := ["hello", "on"] } : Stream).feed (some (echoLine "hello"))).1 = [e] ∧
        e.eventType = .confirmed ∧ e.text = "hello") ∧
      (({ expected := ["hello", "on"] } : Stream).feed (some (echoLine "hello"))).2.expected =
        ["on"]) ↔ chatter "hello" = false :=
  verbatim_echo_confirms_iff { expected := ["hello", "on"] } "hello" ["on"] (echoLine "hello") rfl
    (echoLine_verbatim "hello")

end samples
end SiliconOmni.Claude
