import LedWall.Proofs.Frame.CursorMoves

/-!
# Frames read in place

Reading a frame in place ends without a fault, and gives the frame, or finds the defect, that the
reader of lists does. So no slice that is taken at the position of a cursor is out of range.
-/

namespace LedWall.Frame.Cursor

inductive SameOutcome {α β : Type} (rel : α → β → Prop) :
    Except FrameError α → Except FrameError β → Prop where
  | ok {a : α} {b : β} (h : rel a b) : SameOutcome rel (.ok a) (.ok b)
  | error (e : FrameError) : SameOutcome rel (.error e) (.error e)

/-- Reading in place ends without a fault. The cursor goes forward within its bytes, and the outcome
is that of another reading. -/
def Follows {α β : Type} (x : Reading α) (c : Cursor) (y : Except FrameError β)
    (rel : Cursor → α → β → Prop) : Prop :=
  ∃ result c', x c = .ok (result, c') ∧ Advances c c' ∧ SameOutcome (rel c') result y

section Steps

variable {α β γ δ : Type} {x : Reading α} {f : α → Reading γ} {c c' : Cursor}

theorem run_bind_of_ok {a : α} (h : x c = .ok (.ok a, c')) : (x >>= f) c = f a c' := by
  change (x c >>= _) = _
  rw [h]
  rfl

theorem run_bind_of_error {e : FrameError} (h : x c = .ok (.error e, c')) :
    (x >>= f) c = .ok (.error e, c') := by
  change (x c >>= _) = _
  rw [h]
  rfl

theorem run_here {look : Cursor → Except CursorFault α} {a : α} (h : look c = .ok a) :
    here look c = .ok (.ok a, c) := by
  rw [here, h]
  rfl

namespace Follows

variable {y : Except FrameError β} {g : β → Except FrameError δ} {rel : Cursor → α → β → Prop}
  {rel' : Cursor → γ → δ → Prop}

theorem ok (hpos : c.pos ≤ c.bytes.length) {a : α} {b : β} (h : rel c a b) :
    Follows (pure a) c (.ok b) rel :=
  ⟨.ok a, c, rfl, .refl hpos, .ok h⟩

theorem error (hpos : c.pos ≤ c.bytes.length) (e : FrameError) :
    Follows (throw e) c (.error e) rel :=
  ⟨.error e, c, rfl, .refl hpos, .error e⟩

theorem settled {result : Except FrameError α} (hpos : c.pos ≤ c.bytes.length) :
    Follows (settled result) c result fun c' a b => c' = c ∧ a = b := by
  refine ⟨result, c, rfl, .refl hpos, ?_⟩
  cases result with
  | ok a => exact .ok ⟨rfl, rfl⟩
  | error e => exact .error e

theorem imp {rel₁ : Cursor → α → β → Prop} (hx : Follows x c y rel)
    (h : ∀ c' a b, rel c' a b → rel₁ c' a b) : Follows x c y rel₁ := by
  obtain ⟨result, c', hrun, hmove, hsame⟩ := hx
  refine ⟨result, c', hrun, hmove, ?_⟩
  cases hsame with
  | ok hrel => exact .ok (h _ _ _ hrel)
  | error e => exact .error e

theorem bind (hx : Follows x c y rel)
    (hf : ∀ c' a b, Advances c c' → rel c' a b → Follows (f a) c' (g b) rel') :
    Follows (x >>= f) c (y >>= g) rel' := by
  obtain ⟨result, c', hrun, hmove, hsame⟩ := hx
  cases hsame with
  | ok h =>
      obtain ⟨result', c'', hrun', hmove', hsame'⟩ := hf c' _ _ hmove h
      exact ⟨result', c'', (run_bind_of_ok hrun).trans hrun', hmove.trans hmove', hsame'⟩
  | error e => exact ⟨_, c', run_bind_of_error hrun, hmove, .error e⟩

theorem ite {x' : Reading α} {y' : Except FrameError β} {p : Prop} [Decidable p]
    (hpos : p → Follows x c y rel) (hneg : ¬ p → Follows x' c y' rel) :
    Follows (if p then x else x') c (if p then y else y') rel := by
  by_cases hp : p
  · rw [if_pos hp, if_pos hp]
    exact hpos hp
  · rw [if_neg hp, if_neg hp]
    exact hneg hp

theorem look {z : Except FrameError δ} {look : Cursor → Except CursorFault α} {a : α}
    (h : look c = .ok a) (hf : Follows (f a) c z rel') : Follows (here look >>= f) c z rel' := by
  obtain ⟨result, c', hrun, hmove, hsame⟩ := hf
  exact ⟨result, c', (run_bind_of_ok (run_here h)).trans hrun, hmove, hsame⟩

end Follows

end Steps

/-- A cursor stands where a scan does. It had a placement to start with, or none, and has met the
same comments since then. -/
structure At (start : Option Offset) (c : Cursor) (s : Scan) : Prop where
  inside : c.pos ≤ c.bytes.length
  rest_eq : c.rest = s.rest
  placement_eq : c.placement = start.or (s.comments.findSome? placement?)

theorem At.start {c : Cursor} (hpos : c.pos ≤ c.bytes.length) : At c.placement c ⟨c.rest, []⟩ :=
  ⟨hpos, rfl, (Option.or_none ..).symm⟩

section Headers

variable {readText : List UInt8 → Except CursorFault Offset} {rounds : Nat} {c : Cursor} {s : Scan}
  {start : Option Offset}

theorem follows_field (h : Provided readText rounds c.bytes.length) (hat : At start c s)
    (name : Field) :
    Follows (field readText rounds name) c (s.field name)
      fun c' value found => value = found.1 ∧ At start c' found.2 := by
  obtain ⟨c', hnumber, hreached⟩ := number_reached h hat.inside
  rw [hat.rest_eq] at hnumber hreached
  have hplacement : c'.placement =
      start.or ((s.comments ++ gapComments s.rest).findSome? placement?) := by
    rw [List.findSome?_append, hreached.placement_eq, hat.placement_eq, Option.or_assoc]
  rw [Scan.field]
  cases hfound : number? s.rest with
  | some found =>
      rw [hfound] at hnumber hreached
      refine ⟨.ok found.1, c', ?_, hreached.toAdvances, .ok ⟨rfl, ?_⟩⟩
      · rw [field, bind_of_ok hnumber]
        rfl
      · exact ⟨hreached.inside, hreached.rest_eq, hplacement⟩
  | none =>
      rw [hfound] at hnumber
      refine ⟨_, c', ?_, hreached.toAdvances, .error _⟩
      rw [field, bind_of_ok hnumber]
      rfl

theorem follows_side (h : Provided readText rounds c.bytes.length) (hat : At start c s)
    (name : Field) :
    Follows (side readText rounds name) c (s.side name)
      fun c' value found => value = found.1 ∧ At start c' found.2 := by
  refine (follows_field h hat name).bind ?_
  rintro c' value ⟨_, t⟩ - ⟨rfl, hat'⟩
  exact .ite (fun _ => .ok hat'.inside ⟨rfl, hat'⟩) fun _ => .error hat'.inside _

theorem follows_channelRange (h : Provided readText rounds c.bytes.length) (hat : At start c s) :
    Follows (channelRange readText rounds) c s.channelRange fun c' _ t => At start c' t := by
  refine (follows_field h hat .channelRange).bind ?_
  rintro c' value ⟨_, t⟩ - ⟨rfl, hat'⟩
  exact .ite (fun _ => .ok hat'.inside hat') fun _ => .error hat'.inside _

theorem follows_separator (hat : At start c s) :
    Follows separator c s.data fun c' _ data => c'.pos ≤ c'.bytes.length ∧ c'.rest = data ∧
      c'.placement = start.or (s.comments.findSome? placement?) := by
  have hhead := getElem?_of_rest hat.rest_eq
  rw [Scan.data]
  cases hrest : s.rest with
  | nil =>
      rw [hrest] at hhead
      refine ⟨_, c, ?_, .refl hat.inside, .error _⟩
      rw [separator, hhead]
      rfl
  | cons b data =>
      rw [hrest] at hhead
      have hmove : Reached c { c with pos := c.pos + 1 } data [] :=
        reached_of_append hat.inside (show c.rest = [b] ++ data from hat.rest_eq.trans hrest)
      by_cases hb : isBlank b = true
      · refine ⟨.ok (), _, ?_, hmove.toAdvances, ?_⟩
        · rw [separator, hhead]
          exact if_pos hb
        · simp only [hb, ↓reduceIte]
          exact .ok ⟨hmove.inside, hmove.rest_eq, hat.placement_eq⟩
      · refine ⟨.error (.malformed .missingSeparator), c, ?_, .refl hat.inside, ?_⟩
        · rw [separator, hhead]
          exact if_neg hb
        · simp only [hb]
          exact .error _

theorem remaining_eq (hpos : c.pos ≤ c.bytes.length) :
    slice c.bytes c.pos c.bytes.length = .ok c.rest := by
  rw [slice_eq hpos (le_refl _), List.take_length]
  rfl

theorem follows_rawHeader (h : Provided readText rounds c.bytes.length)
    (hpos : c.pos ≤ c.bytes.length) (hnone : c.placement = none) :
    Follows (rawHeader readText rounds) c (RawHeader.read c.rest) fun c' sides header =>
      c'.pos ≤ c'.bytes.length ∧ sides = (header.width, header.height) ∧ c'.rest = header.data ∧
        c'.placement = header.commented := by
  have hat : At none c ⟨c.rest, []⟩ := hnone ▸ At.start hpos
  refine (follows_side h hat .width).bind ?_
  rintro c₁ width ⟨_, s₁⟩ h₁ ⟨rfl, hat₁⟩
  replace h := h.of_advances h₁
  refine (follows_side h hat₁ .height).bind ?_
  rintro c₂ height ⟨_, s₂⟩ h₂ ⟨rfl, hat₂⟩
  replace h := h.of_advances h₂
  refine (follows_channelRange h hat₂).bind ?_
  intro c₃ _ s₃ h₃ hat₃
  refine (follows_separator hat₃).bind ?_
  rintro c₄ _ data h₄ ⟨hpos₄, hrest, hplacement⟩
  exact .ok hpos₄ ⟨hpos₄, rfl, hrest, hplacement⟩

theorem follows_rawBody (h : Provided readText rounds c.bytes.length)
    (hpos : c.pos ≤ c.bytes.length) {header : RawHeader} (hdata : c.rest = header.data)
    (hplacement : c.placement = header.commented) :
    Follows (rawBody readText rounds header.width header.height) c header.frame
      fun _ f f' => f = f' := by
  have hlength : header.data.length ≤ c.bytes.length := by
    rw [← hdata, rest, List.length_drop]
    omega
  refine .look (congrArg Except.ok hplacement) (.look ((remaining_eq hpos).trans (by rw [hdata])) ?_)
  rw [RawHeader.frame]
  refine .ite (fun _ => .error hpos _) fun _ => ?_
  refine .ite (fun _ => .error hpos _) fun hlong => ?_
  have hneeded : header.needed ≤ header.data.length := Nat.le_of_not_lt hlong
  have hslice : slice header.data header.needed header.data.length =
      .ok (header.data.drop header.needed) := by
    rw [slice_eq hneeded (le_refl _), List.take_length]
  have hrow : footer readText rounds (header.data.drop header.needed) = .ok header.footer := by
    apply footer_eq
    apply h.mono
    rw [List.length_drop]
    omega
  refine .look ((bind_of_ok hslice _).trans hrow) ((Follows.settled hpos).bind ?_)
  rintro _ offset _ - ⟨rfl, rfl⟩
  exact .look (slice_eq (Nat.zero_le _) hneeded) (.ok hpos rfl)

theorem follows_rawFrame (h : Provided readText rounds c.bytes.length)
    (hpos : c.pos ≤ c.bytes.length) (hnone : c.placement = none) :
    Follows (rawFrame readText rounds) c (parseRaw c.rest) fun _ f f' => f = f' := by
  refine (follows_rawHeader h hpos hnone).bind ?_
  rintro c' _ header hmove ⟨hpos', rfl, hdata, hplacement⟩
  exact follows_rawBody (h.of_advances hmove) hpos' hdata hplacement

theorem follows_compressedFrame [Png.Codec] (h : Provided readText rounds c.bytes.length)
    (hpos : c.pos ≤ c.bytes.length) (hnone : c.placement = none) :
    Follows (compressedFrame readText rounds) c (parseCompressed c.rest) fun _ f f' => f = f' := by
  have hat : At none c ⟨c.rest, []⟩ := hnone ▸ At.start hpos
  refine (follows_side h hat .width).bind ?_
  rintro c₁ width ⟨_, s₁⟩ h₁ ⟨rfl, hat₁⟩
  replace h := h.of_advances h₁
  refine (follows_side h hat₁ .height).bind ?_
  rintro c₂ height ⟨_, s₂⟩ h₂ ⟨rfl, hat₂⟩
  replace h := h.of_advances h₂
  refine (follows_channelRange h hat₂).bind ?_
  intro c₃ _ s₃ h₃ hat₃
  replace h := h.of_advances h₃
  refine (follows_field h hat₃ .x).bind ?_
  rintro c₄ x ⟨_, s₄⟩ h₄ ⟨rfl, hat₄⟩
  replace h := h.of_advances h₄
  refine (follows_field h hat₄ .y).bind ?_
  rintro c₅ y ⟨_, s₅⟩ h₅ ⟨rfl, hat₅⟩
  replace h := h.of_advances h₅
  refine (follows_field h hat₅ .layer).bind ?_
  rintro c₆ z ⟨_, s₆⟩ h₆ ⟨rfl, hat₆⟩
  refine (follows_separator hat₆).bind ?_
  rintro c₇ _ _ h₇ ⟨hpos₇, rfl, -⟩
  exact .look (remaining_eq hpos₇) ((Follows.settled hpos₇).imp fun _ _ _ hsame => hsame.2)

end Headers

theorem SameOutcome.eq {α : Type} {x y : Except FrameError α}
    (h : SameOutcome (fun a b => a = b) x y) : x = y := by
  cases h with
  | ok h => exact congrArg Except.ok h
  | error e => rfl

theorem Follows.fst_eq {α : Type} {x : Reading α} {c : Cursor} {y : Except FrameError α}
    (h : Follows x c y fun _ a b => a = b) : (Prod.fst <$> x c) = .ok y := by
  obtain ⟨result, c', hrun, -, hsame⟩ := h
  rw [hrun]
  exact congrArg Except.ok hsame.eq

/-- Reading in place has no fault, and gives what the reader of lists gives. -/
theorem parse_eq [Png.Codec] {rounds depth : Nat} {bytes : List UInt8}
    (hrounds : bytes.length + 2 ≤ rounds) (hdepth : bytes.length / 4 ≤ depth) :
    parse rounds depth bytes = .ok (Frame.parse bytes) := by
  have hprovided := provided_nested hrounds hdepth
  have hpos {magic : List UInt8} (hlength : magic.length = 2)
      (hmagic : magic.isPrefixOf bytes = true) : 2 ≤ bytes.length := by
    have hle := (List.isPrefixOf_iff_prefix.mp hmagic).length_le
    omega
  rw [parse, Frame.parse]
  by_cases hraw : rawMagic.isPrefixOf bytes = true
  · rw [if_pos hraw, if_pos hraw]
    exact (follows_rawFrame (c := ⟨bytes, 2, none⟩) hprovided (hpos rfl hraw) rfl).fst_eq
  · rw [if_neg hraw, if_neg hraw]
    by_cases hcompressed : compressedMagic.isPrefixOf bytes = true
    · rw [if_pos hcompressed, if_pos hcompressed]
      exact (follows_compressedFrame (c := ⟨bytes, 2, none⟩) hprovided (hpos rfl hcompressed)
        rfl).fst_eq
    · rw [if_neg hcompressed, if_neg hcompressed]
      rfl

/-- Whatever a cursor is told to do comes to an end without a fault, and the cursor has then gone
forward within its bytes. -/
structure EndsInRange (readText : List UInt8 → Except CursorFault Offset) (rounds : Nat)
    (c : Cursor) : Prop where
  /-- Without a number, nothing but a gap is passed. -/
  number : ∃ value c', number readText rounds c = .ok (value, c') ∧ Advances c c' ∧
    (value = none → Gap c.rest c'.rest)
  skip : ∃ c', skip readText rounds c = .ok c' ∧ Advances c c'
  readComment : ∀ start stop, start ≤ stop → stop ≤ c.bytes.length →
    ∃ c', readComment readText c start stop = .ok c' ∧ Advances c c'
  field : ∀ name, ∃ result c', field readText rounds name c = .ok (result, c') ∧ Advances c c'
  side : ∀ name, ∃ result c', side readText rounds name c = .ok (result, c') ∧ Advances c c'
  channelRange : ∃ result c', channelRange readText rounds c = .ok (result, c') ∧ Advances c c'
  separator : ∃ result c', separator c = .ok (result, c') ∧ Advances c c'

theorem Follows.ends {α β : Type} {x : Reading α} {c : Cursor} {y : Except FrameError β}
    {rel : Cursor → α → β → Prop} (h : Follows x c y rel) :
    ∃ result c', x c = .ok (result, c') ∧ Advances c c' := by
  obtain ⟨result, c', hrun, hmove, -⟩ := h
  exact ⟨result, c', hrun, hmove⟩

theorem endsInRange {readText : List UInt8 → Except CursorFault Offset} {rounds : Nat} {c : Cursor}
    (h : Provided readText rounds c.bytes.length) (hpos : c.pos ≤ c.bytes.length) :
    EndsInRange readText rounds c := by
  have hrounds := h.rounds
  have hat := At.start hpos
  obtain ⟨c', hnumber, hreached⟩ := number_reached h hpos
  obtain ⟨c'', hskip, hskipped⟩ := skip_reached rounds hpos (by omega) h.reads
  refine {
    number := ⟨_, c', hnumber, hreached.toAdvances, ?_⟩
    skip := ⟨c'', hskip, hskipped.toAdvances⟩
    readComment := ?_
    field := fun name => (follows_field h hat name).ends
    side := fun name => (follows_side h hat name).ends
    channelRange := (follows_channelRange h hat).ends
    separator := (follows_separator hat).ends }
  · intro hnone
    rw [hreached.rest_eq, Option.map_eq_none_iff.mp hnone]
    exact gap_skipGap c.rest
  · intro start stop hstart hstop
    obtain ⟨placement, hcomment, -⟩ := readComment_eq h.reads hstart hstop
    exact ⟨_, hcomment, rfl, le_refl _, hpos⟩

/-- A cursor at any position of any bytes ends each of its operations in range, if a loop may go on
for as many rounds as there are bytes and for two more, and if a fourth as many cursors may be open
within it. What it does depends only on how texts are read that are shorter than its bytes, by the
four of a `#` and a mark at least, and these are read to the end too. So a whole datagram is read in
place without a fault: no slice at the position of a cursor is out of range, and the frame or the
defect is the one that the reader of lists finds. -/
theorem cursor_ends_in_range [Png.Codec] {bytes : List UInt8} {rounds depth : Nat}
    (hrounds : bytes.length + 2 ≤ rounds) (hdepth : bytes.length / 4 ≤ depth) :
    (∀ pos placement, pos ≤ bytes.length →
      EndsInRange (nested rounds depth) rounds ⟨bytes, pos, placement⟩) ∧
    (∀ pos placement f g, AgreeBelow bytes.length f g →
      number f rounds ⟨bytes, pos, placement⟩ = number g rounds ⟨bytes, pos, placement⟩ ∧
      skip f rounds ⟨bytes, pos, placement⟩ = skip g rounds ⟨bytes, pos, placement⟩ ∧
      ∀ start stop, readComment f ⟨bytes, pos, placement⟩ start stop =
        readComment g ⟨bytes, pos, placement⟩ start stop) ∧
    (∀ text, text.length + 4 ≤ bytes.length →
      nested rounds depth text = .ok (placementOf (numbers 3 text))) ∧
    parse rounds depth bytes = .ok (Frame.parse bytes) := by
  have hprovided := provided_nested hrounds hdepth
  refine ⟨?_, ?_, hprovided.reads, parse_eq hrounds hdepth⟩
  · intro pos placement hpos
    exact endsInRange (c := ⟨bytes, pos, placement⟩) hprovided hpos
  · intro pos placement f g hagree
    exact ⟨number_congr hagree rounds, skip_congr hagree rounds, readComment_congr hagree⟩

def marksInMarks : List UInt8 :=
  "P6 #FT:#FT:#FT:1 2 3\n1 1 255\nabc".toList.map fun c => c.toNat.toUInt8

theorem cursor_ends_in_range_marksInMarks : marksInMarks.length + 2 ≤ 40 ∧
    marksInMarks.length / 4 ≤ 8 ∧ EndsInRange (nested 40 8) 40 ⟨marksInMarks, 2, none⟩ ∧
    parse 40 8 marksInMarks = .ok (.ok ⟨.offset, 1, 1, .zero, [⟨97, 98, 99⟩]⟩) := by
  have hrounds : marksInMarks.length + 2 ≤ 40 := by decide
  have hdepth : marksInMarks.length / 4 ≤ 8 := by decide
  have hframe : Frame.parse marksInMarks =
      .ok ⟨.offset, 1, 1, .zero, [⟨97, 98, 99⟩]⟩ := by
    cbv
  obtain ⟨hends, -, -, hparse⟩ := cursor_ends_in_range hrounds hdepth
  rw [hframe] at hparse
  exact ⟨hrounds, hdepth, hends 2 none (by decide), hparse⟩

end LedWall.Frame.Cursor
