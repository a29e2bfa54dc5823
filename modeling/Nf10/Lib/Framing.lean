import Mathlib.Data.List.Basic
import Mathlib.Data.List.Chain
import Mathlib.Data.List.Infix

/-!
# Frames in a word stream

A stream of words with frames in it, each closed by an in-band end word. A reader that holds one
word back learns from the next word whether the one it holds is the last of its frame:

* **`lookahead`** — what such a reader has put out after a stream, each word with its last-mark;
* **`mark`** — what it should put out for one frame;
* **`Framed`** — streams that are a sequence of closed frames;
* **`Framed.lookahead_eq` / `lookahead_partial`** — the reader puts out the frames, and of an
  unfinished one a part;
* **`packets`** — marked words collected into packets, one `push` at a time.
-/

namespace Framing

variable {α : Type*} (isEnd : α → Bool)

/-- Each word that is not an end word is put out when its successor arrives, marked last if that is
an end word. -/
def lookahead : List α → List (α × Bool)
  | [] => []
  | [_] => []
  | w :: x :: rest =>
    if isEnd w then lookahead (x :: rest) else (w, isEnd x) :: lookahead (x :: rest)

/-- The words of one packet, the last one marked. -/
def mark : List α → List (α × Bool)
  | [] => []
  | [w] => [(w, true)]
  | w :: x :: rest => (w, false) :: mark (x :: rest)

/-- After this stream a frame starts: it is empty, or its last word is an end word. -/
def AtStart (l : List α) : Prop :=
  ∀ w ∈ l.getLast?, isEnd w = true

/-- No frame of the stream is empty: it does not begin with an end word and has no two in a row. -/
def Spaced (l : List α) : Prop :=
  (∀ w ∈ l.head?, isEnd w = false) ∧ l.IsChain fun v w => ¬ (isEnd v = true ∧ isEnd w = true)

variable {isEnd}

/-- Before the first word a packet may begin. -/
theorem atStart_nil : AtStart isEnd [] := by
  intro w hw
  cases hw

/-- Behind a word a packet may begin exactly when the word closed one. -/
theorem atStart_concat {l : List α} {w : α} : AtStart isEnd (l ++ [w]) ↔ isEnd w = true := by
  simp [AtStart]

/-- Where a frame starts, the reader holds nothing back. -/
theorem lookahead_append_of_atStart {l : List α} (h : AtStart isEnd l) (m : List α) :
    lookahead isEnd (l ++ m) = lookahead isEnd l ++ lookahead isEnd m := by
  induction l with
  | nil => rfl
  | cons w rest ih =>
    cases rest with
    | nil =>
      have hw : isEnd w = true := h w rfl
      cases m with
      | nil => rfl
      | cons x m => simp [lookahead, hw]
    | cons x rest =>
      have ih := ih (by simpa [AtStart, List.getLast?_cons_cons] using h)
      simp only [List.cons_append] at ih ⊢
      by_cases hw : isEnd w
      · simp only [lookahead, hw, if_true, ih]
      · simp only [lookahead, hw, ih]
        rfl

/-- The reader puts out the word it holds when the next one arrives. -/
theorem lookahead_concat (l : List α) {w : α} (hw : isEnd w = false) (x : α) :
    lookahead isEnd (l ++ [w] ++ [x]) = lookahead isEnd (l ++ [w]) ++ [(w, isEnd x)] := by
  induction l with
  | nil => simp [lookahead, hw]
  | cons v rest ih =>
    cases rest with
    | nil =>
      simp only [List.cons_append, List.nil_append, lookahead, hw]
      split <;> rfl
    | cons u rest =>
      simp only [List.cons_append] at ih ⊢
      by_cases hv : isEnd v
      · simp only [lookahead, hv, if_true, ih]
      · simp only [lookahead, hv, ih]
        rfl

/-- One more word may settle the mark of the word before it, and takes nothing back. -/
theorem lookahead_prefix_concat (l : List α) (x : α) :
    lookahead isEnd l <+: lookahead isEnd (l ++ [x]) := by
  rcases List.eq_nil_or_concat l with rfl | ⟨l, w, rfl⟩
  · exact List.nil_prefix
  · cases hw : isEnd w with
    | false =>
      simp only [List.concat_eq_append]
      rw [lookahead_concat l hw]
      exact List.prefix_append _ _
    | true =>
      simp only [List.concat_eq_append]
      rw [lookahead_append_of_atStart (atStart_concat.mpr hw)]
      exact List.prefix_append _ _

/-- More input never takes back what was put out. -/
theorem lookahead_mono {l m : List α} (h : l <+: m) : lookahead isEnd l <+: lookahead isEnd m := by
  obtain ⟨t, rfl⟩ := h
  induction t using List.reverseRecOn with
  | nil => simp
  | append_singleton t x ih =>
    rw [← List.append_assoc]
    exact ih.trans (lookahead_prefix_concat _ x)

/-- A frame with its closing word comes out as a marked packet. -/
theorem lookahead_frame {ws : List α} (hws : ∀ w ∈ ws, isEnd w = false) {t : α}
    (ht : isEnd t = true) : lookahead isEnd (ws ++ [t]) = mark ws := by
  induction ws with
  | nil => rfl
  | cons w rest ih =>
    have hw : isEnd w = false := hws w (List.mem_cons_self ..)
    have ih := ih fun v hv => hws v (List.mem_cons_of_mem w hv)
    cases rest with
    | nil => simp [lookahead, mark, hw, ht]
    | cons x rest =>
      have hx : isEnd x = false := hws x (by simp)
      simp only [List.cons_append] at ih ⊢
      simp [lookahead, mark, hw, hx, ih]

/-- A frame that is still under way comes out as the beginning of the marked packet it will be. -/
theorem lookahead_partial {given : List α} (hgiven : ∀ w ∈ given, isEnd w = false)
    (rest : List α) : lookahead isEnd given <+: mark (given ++ rest) := by
  induction given with
  | nil => exact List.nil_prefix
  | cons w given ih =>
    have hw : isEnd w = false := hgiven w (List.mem_cons_self ..)
    have ih := ih fun v hv => hgiven v (List.mem_cons_of_mem w hv)
    cases given with
    | nil => exact List.nil_prefix
    | cons x given =>
      have hx : isEnd x = false := hgiven x (by simp)
      simp only [List.cons_append] at ih ⊢
      simp only [lookahead, mark, hw, hx]
      exact (List.prefix_cons_inj _).mpr ih

/-- **Closed frames.** The stream is the frames `fs`, each not empty, without an end word inside and
with one behind it. -/
inductive Framed (isEnd : α → Bool) : List (List α) → List α → Prop where
  | nil : Framed isEnd [] []
  | snoc {fs : List (List α)} {l ws : List α} {t : α} (h : Framed isEnd fs l) (hne : ws ≠ [])
      (hws : ∀ w ∈ ws, isEnd w = false) (ht : isEnd t = true) :
      Framed isEnd (fs ++ [ws]) (l ++ ws ++ [t])

namespace Framed

variable {fs : List (List α)} {l : List α}

theorem atStart (h : Framed isEnd fs l) : AtStart isEnd l := by
  cases h with
  | nil => exact atStart_nil
  | snoc _ _ _ ht => exact atStart_concat.mpr ht

theorem lookahead_eq (h : Framed isEnd fs l) : lookahead isEnd l = fs.flatMap mark := by
  induction h with
  | nil => rfl
  | snoc h _ hws ht ih =>
    rw [List.append_assoc, lookahead_append_of_atStart h.atStart, lookahead_frame hws ht, ih]
    simp

theorem isChain_of_no_end {ws : List α} (hws : ∀ w ∈ ws, isEnd w = false) :
    ws.IsChain fun v w => ¬ (isEnd v = true ∧ isEnd w = true) := by
  apply List.Pairwise.isChain
  apply List.Pairwise.imp_mem.mpr
  apply List.pairwise_of_forall
  intro v w hv _ ⟨hv', _⟩
  rw [hws v hv] at hv'
  cases hv'

/-- Spacing survives the words of one more frame. -/
theorem spaced_append {l ws : List α} (h : Spaced isEnd l) (hws : ∀ w ∈ ws, isEnd w = false) :
    Spaced isEnd (l ++ ws) := by
  refine ⟨?_, ?_⟩
  · cases l with
    | nil =>
      intro w hw
      exact hws w (List.mem_of_mem_head? hw)
    | cons v l => exact h.1
  · rw [List.isChain_append]
    refine ⟨h.2, isChain_of_no_end hws, ?_⟩
    intro v _ w hw ⟨_, hw'⟩
    rw [hws w (List.mem_of_mem_head? hw)] at hw'
    cases hw'

/-- Frames with a word each leave two closing words apart. -/
theorem spaced (h : Framed isEnd fs l) : Spaced isEnd l := by
  induction h with
  | nil =>
    refine ⟨?_, List.isChain_nil⟩
    intro w hw
    cases hw
  -- two end words would meet at the seams only: before `ws`, or between `ws` and `t`
  | @snoc fs l ws t _ hne hws _ ih =>
    have hpart : Spaced isEnd (l ++ ws) := spaced_append ih hws
    refine ⟨?_, ?_⟩
    · intro w hw
      apply hpart.1 w
      rwa [List.head?_append_of_ne_nil _ (by simp [hne])] at hw
    · rw [List.isChain_append]
      refine ⟨hpart.2, List.isChain_singleton t, ?_⟩
      intro v hv w _ ⟨hv', _⟩
      rw [List.getLast?_append_of_ne_nil _ hne] at hv
      rw [hws v (List.mem_of_mem_getLast? hv)] at hv'
      cases hv'

end Framed

/-- Where a frame may begin, the next word begins one: two closing words never meet. -/
theorem Spaced.next {l rest : List α} {x : α} (h : Spaced isEnd (l ++ x :: rest))
    (hstart : AtStart isEnd l) : isEnd x = false := by
  rcases List.eq_nil_or_concat l with rfl | ⟨l, w, rfl⟩
  · exact h.1 x rfl
  · rw [List.concat_eq_append] at h hstart
    have hchain := (List.isChain_append.mp h.2).2.2 w (by simp) x rfl
    have hw : isEnd w = true := atStart_concat.mp hstart
    cases hx : isEnd x with
    | false => rfl
    | true => exact absurd ⟨hw, hx⟩ hchain

/-! ## Packets out of marked words

The other direction: words that come with their last-mark, collected into packets. -/

/-- Take one more word: `st` is the packets so far and the words of the unfinished one. -/
def push (st : List (List α) × List α) (x : α × Bool) : List (List α) × List α :=
  if x.2 then (st.1 ++ [st.2 ++ [x.1]], []) else (st.1, st.2 ++ [x.1])

/-- A stream cut into packets: the finished ones and the words of the one under way. -/
def packets (l : List (α × Bool)) : List (List α) × List α :=
  l.foldl push ([], [])

/-- One word at a time, which is how a step of a module extends its stream. -/
theorem packets_concat (l : List (α × Bool)) (x : α × Bool) :
    packets (l ++ [x]) = push (packets l) x := by
  simp [packets]

@[simp] theorem push_last (st : List (List α) × List α) (w : α) :
    push st (w, true) = (st.1 ++ [st.2 ++ [w]], []) := rfl

@[simp] theorem push_word (st : List (List α) × List α) (w : α) :
    push st (w, false) = (st.1, st.2 ++ [w]) := rfl

/-- A packet is finished exactly by a word that is marked. -/
theorem length_push (st : List (List α) × List α) (x : α × Bool) :
    (push st x).1.length = st.1.length + x.2.toNat := by
  obtain ⟨w, last⟩ := x
  cases last <;> simp

/-- A longer stream has the same packets and perhaps more; the unfinished packet is the beginning of
the next one. -/
theorem packets_append (l m : List (α × Bool)) :
    ∃ more, (packets (l ++ m)).1 = (packets l).1 ++ more
      ∧ (packets l).2 <+: (more.head?.getD (packets (l ++ m)).2) := by
  -- on what is added, word by word; `more` gets its first packet at the first last word
  induction m using List.reverseRecOn with
  | nil => exact ⟨[], by simp⟩
  | append_singleton m x ih =>
    obtain ⟨more, hmore, hpart⟩ := ih
    obtain ⟨w, last⟩ := x
    rw [← List.append_assoc, packets_concat]
    cases more with
    | nil =>
      simp only [List.append_nil, List.head?_nil, Option.getD_none] at hmore hpart
      cases last with
      | false => exact ⟨[], by simp [hmore], by simpa using hpart.trans (List.prefix_append _ [w])⟩
      | true =>
        refine ⟨[(packets (l ++ m)).2 ++ [w]], by simp [hmore], ?_⟩
        simpa using hpart.trans (List.prefix_append _ [w])
    | cons f more =>
      cases last with
      | false => exact ⟨f :: more, by simp [hmore], by simpa using hpart⟩
      | true =>
        exact ⟨f :: more ++ [(packets (l ++ m)).2 ++ [w]], by simp [hmore], by simpa using hpart⟩

/-- A longer stream has the packets of a shorter one and perhaps more. -/
theorem packets_isPrefix {l m : List (α × Bool)} (h : l <+: m) :
    (packets l).1 <+: (packets m).1 := by
  obtain ⟨t, rfl⟩ := h
  obtain ⟨more, hmore, _⟩ := packets_append l t
  exact ⟨more, hmore.symm⟩

/-- There are as many finished packets as marked words. -/
theorem length_packets (l : List (α × Bool)) : (packets l).1.length = l.countP (·.2) := by
  induction l using List.reverseRecOn with
  | nil => rfl
  | append_singleton l x ih =>
    rw [packets_concat, length_push, ih, List.countP_append]
    obtain ⟨w, last⟩ := x
    cases last <;> rfl

/-- If there is a last word ahead, the unfinished packet is the beginning of one of the packets. -/
theorem packets_next {l m : List (α × Bool)} (h : 0 < m.countP (·.2)) :
    ∃ f, (packets l).1 ++ [f] <+: (packets (l ++ m)).1 ∧ (packets l).2 <+: f := by
  obtain ⟨more, hmore, hpart⟩ := packets_append l m
  have hlength : (packets l).1.length + more.length = (packets l).1.length + m.countP (·.2) := by
    rw [← List.length_append, ← hmore, length_packets, length_packets, List.countP_append]
  cases more with
  | nil =>
    simp only [List.length_nil] at hlength
    omega
  | cons f more => exact ⟨f, ⟨more, by simp [hmore]⟩, hpart⟩

/-- Words that are not marked all go to the packet under way. -/
theorem packets_append_of_no_last (l : List (α × Bool)) {m : List (α × Bool)}
    (hm : ∀ x ∈ m, x.2 = false) :
    packets (l ++ m) = ((packets l).1, (packets l).2 ++ m.map Prod.fst) := by
  induction m using List.reverseRecOn with
  | nil => simp
  | append_singleton m x ih =>
    have hx : x.2 = false := hm x (by simp)
    have ih := ih fun y hy => hm y (List.mem_append_left _ hy)
    obtain ⟨w, last⟩ := x
    subst hx
    rw [← List.append_assoc, packets_concat, ih]
    simp

/-- The mark is on the last word and on no other. -/
theorem mark_concat (l : List α) (w : α) : mark (l ++ [w]) = l.map (·, false) ++ [(w, true)] := by
  induction l with
  | nil => rfl
  | cons v l ih =>
    obtain ⟨x, rest, hx⟩ := List.exists_cons_of_ne_nil (List.append_ne_nil_of_right_ne_nil l
      (List.cons_ne_nil w []))
    rw [hx] at ih
    rw [List.cons_append, hx, mark, ih]
    rfl

/-- **Nothing is lost in packets.** A marked stream is its packets, marked again, and the words of the
unfinished one. -/
theorem flatMap_mark_packets (l : List (α × Bool)) :
    (packets l).1.flatMap mark ++ (packets l).2.map (·, false) = l := by
  induction l using List.reverseRecOn with
  | nil => rfl
  | append_singleton l x ih =>
    obtain ⟨w, last⟩ := x
    rw [packets_concat]
    cases last with
    | false => rw [push_word, List.map_append, ← List.append_assoc, ih, List.map_singleton]
    | true =>
      rw [push_last, List.flatMap_append, List.flatMap_singleton, mark_concat, List.map_nil,
        List.append_nil, ← List.append_assoc, ih]

/-- Cutting does not look at the data of the words. -/
theorem packets_map {β : Type*} (f : α → β) (l : List (α × Bool)) :
    packets (l.map fun x => (f x.1, x.2))
      = ((packets l).1.map (List.map f), (packets l).2.map f) := by
  induction l using List.reverseRecOn with
  | nil => rfl
  | append_singleton l x ih =>
    obtain ⟨w, last⟩ := x
    rw [List.map_append, List.map_singleton, packets_concat, packets_concat, ih]
    cases last <;> simp

end Framing
