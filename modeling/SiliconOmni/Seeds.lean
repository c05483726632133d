import SiliconOmni.Lib.Merging
import SiliconOmni.Translate

/-! What a provider is handed of the history: nothing is lost, and pieces make up the whole. -/
namespace SiliconOmni

/-- Two transcripts one after the other; a side that speaks on across the seam has one turn there. -/
def joined (first second : List Turn) : List Turn :=
  match first.getLast?, second with
  | some last, next :: rest =>
      if last.role = next.role then
        first.dropLast ++ { last with text := last.text ++ "\n" ++ next.text } :: rest
      else first ++ second
  | _, _ => first ++ second

/-- A turn is the texts of a group of renderings under its role, a newline between each two. -/
def Turn.Reads (turn : Turn) (group : List Turn) : Prop :=
  group ≠ [] ∧ (∀ part ∈ group, part.role = turn.role) ∧
    turn.text = "\n".intercalate (group.map Turn.text)

/-- One side speaking twice is one turn. -/
def speaking : Lib.Merging Turn Role where
  key := Turn.role
  merge last next := { last with text := last.text ++ "\n" ++ next.text }
  key_merge _ _ := rfl
  assoc a b c := by simp [String.append_assoc]

theorem joined_eq (first second : List Turn) : joined first second = speaking.join first second := by
  unfold joined Lib.Merging.join
  cases first.getLast? with
  | none => rfl
  | some last =>
    cases second with
    | nil => rfl
    | cons next rest => rfl

theorem Turn.reads_one (turn : Turn) : turn.Reads [turn] := by
  refine ⟨by simp, by simp, ?_⟩
  rw [List.map_singleton, String.intercalate_singleton]

theorem Turn.reads_more (turn : Turn) (group : List Turn) (next : Turn) (h : turn.Reads group)
    (same : turn.role = next.role) : (speaking.merge turn next).Reads (group ++ [next]) := by
  obtain ⟨hne, hroles, htext⟩ := h
  refine ⟨by simp, ?_, ?_⟩
  · intro part hpart
    rcases List.mem_append.mp hpart with hpart | hpart
    · exact hroles part hpart
    · rw [List.mem_singleton.mp hpart]
      exact same.symm
  · have htexts : group.map Turn.text ≠ [] := by simpa using hne
    rw [List.map_append, List.map_singleton,
      String.intercalate_append_of_ne_nil htexts (List.cons_ne_nil _ _), String.intercalate_singleton,
      ← htext]
    rfl

theorem Turn.Reads.text_ne {turn : Turn} {group : List Turn} (h : turn.Reads group)
    (said : ∀ part ∈ group, part.text ≠ "") : turn.text ≠ "" := by
  obtain ⟨hne, _, htext⟩ := h
  cases group with
  | nil => exact absurd rfl hne
  | cons part group =>
    have hpart : part.text ≠ "" := said part List.mem_cons_self
    rw [htext]
    cases group with
    | nil => simpa using hpart
    | cons next group =>
      rw [List.map_cons, List.map_cons, String.intercalate_cons_cons]
      simp [hpart]

variable [Host]

/-- What is rendered of a history, in order, each text under the role that speaks it. -/
def renderings (events : List Event) : List Turn :=
  (events.filter fun event => render event != "").map fun event => ⟨roleOf event, render event⟩

theorem renderings_append (xs ys : List Event) :
    renderings (xs ++ ys) = renderings xs ++ renderings ys := by
  simp [renderings]

theorem renderings_singleton (event : Event) :
    renderings [event] = if render event = "" then [] else [⟨roleOf event, render event⟩] := by
  by_cases h : render event = "" <;> simp [renderings, h]

theorem renderings_ne (xs : List Event) : ∀ part ∈ renderings xs, part.text ≠ "" := by
  intro part hpart
  obtain ⟨event, hevent, rfl⟩ := List.mem_map.mp hpart
  simpa using (List.mem_filter.mp hevent).2

theorem transcriptStep_eq (out : List Turn) (event : Event) :
    transcriptStep out event = speaking.join out (renderings [event]) := by
  rw [renderings_singleton]
  by_cases hempty : render event = ""
  · simp [transcriptStep, hempty]
  · rw [if_neg hempty, ← joined_eq]
    simp only [transcriptStep, if_neg hempty, joined]
    cases out.getLast? with
    | none => rfl
    | some last => rfl

/-- A transcript is its renderings with neighbours of one role merged. -/
theorem transcript_eq (xs : List Event) : transcript xs = speaking.merged (renderings xs) := by
  induction xs using List.reverseRecOn with
  | nil => rfl
  | append_singleton xs event ih =>
    have hlast : transcript (xs ++ [event]) = transcriptStep (transcript xs) event := by
      simp [transcript]
    have hone : speaking.merged (renderings [event]) = renderings [event] := by
      rw [renderings_singleton]
      split_ifs <;> rfl
    rw [hlast, transcriptStep_eq, renderings_append, speaking.merged_append, hone, ih]

/-- The turns of a transcript, read in order, are the renderings in order. -/
theorem transcript_reads (xs : List Event) :
    ∃ groups : List (List Turn), groups.flatten = renderings xs ∧
      List.Forall₂ Turn.Reads (transcript xs) groups := by
  rw [transcript_eq]
  exact speaking.merged_groups Turn.Reads Turn.reads_one Turn.reads_more _

/-- No turn of a transcript is empty. -/
theorem transcript_text_ne (xs : List Event) : ∀ turn ∈ transcript xs, turn.text ≠ "" := by
  obtain ⟨groups, hflat, hreads⟩ := transcript_reads xs
  intro turn hturn
  obtain ⟨i, hi, rfl⟩ := List.getElem_of_mem hturn
  have hi' : i < groups.length := by rwa [← hreads.length_eq]
  have hread := List.Forall₂.get hreads hi hi'
  refine hread.text_ne fun part hpart => renderings_ne xs part ?_
  rw [← hflat]
  exact List.mem_flatten.mpr ⟨groups[i], List.getElem_mem hi', hpart⟩

/-- Two histories are one, their seam closed up. -/
theorem transcript_append (xs ys : List Event) :
    transcript (xs ++ ys) = joined (transcript xs) (transcript ys) := by
  rw [joined_eq, transcript_eq, transcript_eq, transcript_eq, renderings_append,
    speaking.merged_append]

theorem transcript_flatten (catchUps : List (List Event)) :
    transcript catchUps.flatten = (catchUps.map transcript).foldl joined [] := by
  have renders : renderings catchUps.flatten = (catchUps.map renderings).flatten := by
    unfold renderings
    rw [List.filter_flatten, List.map_flatten, List.map_map]
    rfl
  have parts : catchUps.map transcript = (catchUps.map renderings).map speaking.merged := by
    rw [List.map_map]
    exact List.map_congr_left fun events _ => transcript_eq events
  have joins : joined = speaking.join := funext fun first => funext (joined_eq first)
  rw [transcript_eq, renders, speaking.merged_flatten, parts, joins]

/-- A history seeded in catch-ups is the whole: joined where two of them meet, the roles alternate,
no turn is empty, and the turns read in order are what is rendered, in order, under its roles. -/
theorem transcript_composes (xs ys : List Event) (catchUps : List (List Event)) :
    transcript (xs ++ ys) = joined (transcript xs) (transcript ys) ∧
      (transcript xs).IsChain (fun a b => a.role ≠ b.role) ∧
      (∀ turn ∈ transcript xs, turn.text ≠ "") ∧
      (∃ groups : List (List Turn), groups.flatten = renderings xs ∧
        List.Forall₂ Turn.Reads (transcript xs) groups) ∧
      transcript catchUps.flatten = (catchUps.map transcript).foldl joined [] := by
  refine ⟨transcript_append xs ys, ?_, transcript_text_ne xs, transcript_reads xs,
    transcript_flatten catchUps⟩
  rw [transcript_eq]
  exact speaking.merged_chain _

end SiliconOmni
