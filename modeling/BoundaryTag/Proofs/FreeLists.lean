import BoundaryTag.Proofs.Relinking

/-!
# Insertion and removal

On free lists that spell out plain lists, both operations end without a fault: none of the checks on
the way can fail. They leave free lists that spell out the edited plain lists and touch nothing but
the link slots of the block and of its neighbours.
-/
namespace BoundaryTag

namespace Block

variable {arena : Arena} {offset : Nat}

theorem size_of_le (inside : offset + 8 ≤ arena.hi) :
    (Block.mk offset).size arena = .ok (arena.sizeAt offset) := by
  rw [size, header, Arena.readWord_of_le arena offset inside]
  rfl

theorem nextSlot_of_lt (below : offset + 8 < wordLimit) :
    (Block.mk offset).nextSlot = .ok (offset + 8) :=
  addWord_of_lt offset 8 below

theorem prevSlot_of_lt (below : offset + 16 < wordLimit) :
    (Block.mk offset).prevSlot = .ok (offset + 16) := by
  have payload : (Block.mk offset).payload = .ok (offset + 8) := addWord_of_lt offset 8 (by omega)
  rw [prevSlot, except_bind_of_ok payload]
  exact addWord_of_lt (offset + 8) 8 below

/-- A link is read as the block that the word names, and zero as none. -/
theorem linkAt_of_word (link : Option Nat) (nonzero : ∀ block, link = some block → block ≠ 0)
    (inside : offset + 8 ≤ arena.hi) (stored : arena.word offset = link.getD 0) :
    linkAt offset arena = .ok (link.map Block.mk) := by
  rw [linkAt, except_bind_of_ok (Arena.readWord_of_le arena offset inside), stored]
  cases link with
  | none => rfl
  | some block => simp [nonzero block rfl, pure, Except.pure]

theorem setLinkAt_returns (link : Option Nat) (inside : offset + 8 ≤ arena.hi)
    (fits : ∀ block, link = some block → block < wordLimit) :
    Returns (setLinkAt offset (link.map Block.mk)) arena fun _ after =>
      Arena.Confined (Span offset (offset + 8)) arena after
        ∧ after.word offset = link.getD 0 := by
  cases link with
  | none => exact Arena.writeWord_returns arena offset 0 inside (by decide)
  | some block => exact Arena.writeWord_returns arena offset block inside (fits block rfl)

/-- The backward link of a block is replaced, if there is a block. -/
theorem setPrevFree_returns (target link : Option Nat)
    (inside : ∀ block, target = some block → block + 24 ≤ arena.hi)
    (fits : ∀ block, link = some block → block < wordLimit) :
    Returns (setPrevFree (target.map Block.mk) (link.map Block.mk)) arena fun _ after =>
      Arena.Confined
          (fun position => ∃ block, target = some block ∧ Span (block + 16) (block + 24) position)
          arena after
        ∧ ∀ block, target = some block → after.word (block + 16) = link.getD 0 := by
  cases target with
  | none => exact Returns.pure ⟨.refl _ _, nofun⟩
  | some block =>
    have room := inside block rfl
    have below := arena.hi_lt
    refine Returns.step (lift_of_ok (prevSlot_of_lt (by omega))) ?_
    refine (setLinkAt_returns link (by omega) fits).mono ?_
    rintro ⟨⟩ after ⟨confined, stored⟩
    refine ⟨confined.mono fun position slot => ⟨block, rfl, slot⟩, ?_⟩
    rintro other ⟨⟩
    exact stored

end Block

namespace FreeLists

open Block (setLinkAt_returns setPrevFree_returns)

variable {arena : Arena} {lists : FreeLists} {chains : Chains} {bucket : Bucket} {offset : Nat}
  {before rest : List Nat}

@[simp] theorem head_setHead (lists : FreeLists) (bucket other : Bucket) (head : Option Block) :
    (lists.setHead bucket head).head other = if other = bucket then head else lists.head other := by
  simp only [FreeLists.head, setHead, Fin.getElem_fin, Vector.getElem_set, Fin.ext_iff,
    eq_comm (a := bucket.val)]

theorem head_empty (bucket : Bucket) : empty.head bucket = none := by
  simp [FreeLists.head, empty]

/-- In a bucket with backward links the new head has none and the old head leads back to it. -/
theorem linkBack_returns (head : Option Nat) (inside : isTwoWay bucket = true →
      ∀ block, block = offset ∨ head = some block → block + 24 ≤ arena.hi)
    (apart : isTwoWay bucket = true →
      ∀ block, head = some block → offset + 24 ≤ block + 16 ∨ block + 24 ≤ offset + 16) :
    Returns (linkBack bucket ⟨offset⟩ (head.map Block.mk)) arena fun _ after =>
      Arena.Confined (fun position => ∃ block, (isTwoWay bucket = true
          ∧ (block = offset ∨ head = some block)) ∧ Span (block + 16) (block + 24) position)
          arena after
        ∧ (isTwoWay bucket = true → after.word (offset + 16) = 0)
        ∧ (isTwoWay bucket = true → ∀ block, head = some block →
          after.word (block + 16) = offset) := by
  unfold linkBack
  by_cases twoWay : isTwoWay bucket = true
  · have below := arena.hi_lt
    have room := inside twoWay offset (.inl rfl)
    rw [if_pos twoWay]
    refine (setPrevFree_returns (some offset) none (by simpa using room) nofun).bind ?_
    rintro ⟨⟩ middle ⟨own, cleared⟩
    refine (setPrevFree_returns head (some offset) ?_ ?_).mono ?_
    · intro block first
      rw [own.hi]
      exact inside twoWay block (.inr first)
    · rintro block ⟨⟩
      omega
    · rintro ⟨⟩ after ⟨old, led⟩
      refine ⟨(own.mono ?_).trans (old.mono ?_), fun _ => ?_, fun _ => led⟩
      · rintro position ⟨block, ⟨⟩, slot⟩
        exact ⟨offset, ⟨twoWay, .inl rfl⟩, slot⟩
      · rintro position ⟨block, first, slot⟩
        exact ⟨block, ⟨twoWay, .inr first⟩, slot⟩
      · -- The backward link of the old head does not overlap that of the new one.
        rw [old.word, cleared offset rfl, Option.getD_none]
        rintro position inside ⟨block, first, slot⟩
        have clear := apart twoWay block first
        unfold Span at *
        omega
  · rw [if_neg twoWay]
    exact Returns.pure ⟨.refl _ _, fun both => absurd both twoWay, fun both => absurd both twoWay⟩

/-- A block that overlaps no member is not a head. -/
theorem head_ne_of_fresh (listed : Listed arena lists chains) (real : 16 ≤ arena.sizeAt offset)
    (fresh : ∀ other, ∀ member ∈ chains other, arena.Apart offset member) (bucket : Bucket) :
    (lists.head bucket != some ⟨offset⟩) = true := by
  rw [bne_iff_ne, listed.heads]
  intro same
  obtain ⟨block, first, equal⟩ := Option.map_eq_some_iff.mp same
  cases equal
  have apart := fresh bucket offset (List.mem_of_head? first)
  unfold Arena.Apart at apart
  omega

/-- Insertion puts a block in front of the list of its class. -/
theorem insert_returns (listed : Listed arena lists chains)
    (listable : arena.Listable bucket offset)
    (fresh : ∀ other, ∀ member ∈ chains other, arena.Apart offset member) :
    Returns (lists.insert ⟨offset⟩) arena fun edited after =>
      Listed after edited (chains.push bucket offset)
        ∧ Arena.Confined (fun position => ∃ block,
            (block = offset ∨ (chains bucket).head? = some block) ∧ arena.LinkSlot block position)
          arena after := by
  have real := listable.real
  have room := listable.inside
  have below := arena.hi_lt
  have size : (Block.mk offset).size arena = .ok (arena.sizeAt offset) :=
    Block.size_of_le (by omega)
  have slot : (Block.mk offset).nextSlot = .ok (offset + 8) := Block.nextSlot_of_lt (by omega)
  have oldHead {block : Nat} (first : (chains bucket).head? = some block) :
      block ∈ chains bucket :=
    List.mem_of_head? first
  have different := head_ne_of_fresh listed real fresh bucket
  unfold insert
  refine Returns.step (reading_of_ok size) ?_
  simp only [listable.classified]
  refine Returns.step (lift_of_ok (ensure_of_true _ different)) ?_
  refine Returns.step (lift_of_ok slot) ?_
  rw [listed.heads]
  refine (setLinkAt_returns (chains bucket).head? (by omega) ?_).bind ?_
  · intro block first
    have inside := (listed.listable bucket block (oldHead first)).inside
    omega
  · rintro ⟨⟩ middle ⟨own, forward⟩
    refine (linkBack_returns (chains bucket).head? ?_ ?_).bind ?_
    · rintro twoWay block (rfl | first)
      · have large := listable.large twoWay
        rw [own.hi]
        omega
      · have member := listed.listable bucket block (oldHead first)
        have large := member.large twoWay
        have inside := member.inside
        rw [own.hi]
        omega
    · intro twoWay block first
      have large := listable.large twoWay
      have otherLarge := (listed.listable bucket block (oldHead first)).large twoWay
      have apart := fresh bucket block (oldHead first)
      unfold Arena.Apart at apart
      omega
    · rintro ⟨⟩ after ⟨back, backward, led⟩
      have confined : Arena.Confined (Arena.LinksOf (fun block => block = offset)
          fun block => isTwoWay bucket = true
            ∧ (block = offset ∨ (chains bucket).head? = some block)) arena after :=
        (own.mono fun position slot => .inl ⟨offset, rfl, slot⟩).trans
          (back.mono fun position slots => .inr slots)
      -- The forward link is written first and has to survive the backward links.
      have stays : after.word (offset + 8) = (chains bucket).head?.getD 0 := by
        rw [back.word, forward]
        rintro position slot ⟨block, ⟨twoWay, rfl | first⟩, other⟩
        · unfold Span at *
          omega
        · have otherLarge := (listed.listable bucket block (oldHead first)).large twoWay
          have apart := fresh bucket block (oldHead first)
          unfold Arena.Apart Span at *
          omega
      refine Returns.pure ⟨listed.link listable fresh confined stays backward led ?_, ?_⟩
      · intro other
        rw [head_setHead]
      · refine confined.mono fun position => Arena.linkSlot_of_linksOf ?_ ?_
        · rintro block rfl
          exact ⟨.inl rfl, real⟩
        · rintro block ⟨twoWay, rfl | first⟩
          · exact ⟨.inl rfl, listable.large twoWay⟩
          · exact ⟨.inr first, (listed.listable bucket block (oldHead first)).large twoWay⟩

/-- The links of a member lead to its neighbours on the list. -/
theorem links_of_place (listed : Listed arena lists chains)
    (place : chains bucket = before ++ offset :: rest) :
    arena.word (offset + 8) = rest.head?.getD 0
      ∧ (isTwoWay bucket = true → arena.word (offset + 16) = before.getLast?.getD 0) := by
  have links := listed.links bucket
  rw [place, Arena.linked_append] at links
  exact ⟨links.2.1, links.2.2.1⟩

theorem nextFree_of_place (listed : Listed arena lists chains)
    (place : chains bucket = before ++ offset :: rest) :
    (Block.mk offset).nextFree arena = .ok (rest.head?.map Block.mk) := by
  have member : offset ∈ chains bucket := by simp [place]
  have real := (listed.listable bucket offset member).real
  have inside := (listed.listable bucket offset member).inside
  have below := arena.hi_lt
  rw [Block.nextFree, except_bind_of_ok (Block.nextSlot_of_lt (by omega))]
  apply Block.linkAt_of_word rest.head? _ (by omega) (links_of_place listed place).1
  intro block first
  have there : block ∈ chains bucket := by simp [place, List.mem_of_head? first]
  exact (listed.listable bucket block there).nonzero

/-- The walk along a bucket finds the member before a member; there is none before the head. -/
theorem predecessor_of_place (listed : Listed arena lists chains) (fuel : Nat)
    (passed : List Nat) (place : chains bucket = passed ++ before ++ offset :: rest)
    (enough : before.length ≤ fuel) :
    predecessor arena ⟨offset⟩ fuel (before.head?.map Block.mk) =
      .ok (before.getLast?.map Block.mk) := by
  induction before generalizing fuel passed with
  | nil => cases fuel <;> rfl
  | cons node tail ih =>
    rw [List.length_cons] at enough
    obtain ⟨less, rfl⟩ : ∃ less, fuel = less + 1 := ⟨fuel - 1, by omega⟩
    -- The walk has passed some members; the next one is on the way to the one that is looked for.
    have here : chains bucket = passed ++ node :: (tail ++ offset :: rest) := by simp [place]
    have read := nextFree_of_place listed here
    rw [List.head?_cons, Option.map_some, predecessor, except_bind_of_ok read]
    cases tail with
    | nil => simp [pure, Except.pure]
    | cons next others =>
      have nodup := listed.nodup bucket
      have different : next ≠ offset := by
        rintro rfl
        simp [place, List.nodup_append] at nodup
      have walked := ih less (passed ++ [node]) (by simp [place]) (by omega)
      rw [List.getLast?_cons_cons]
      simpa [different] using walked

/-- What leads to a member is made to lead past it: the link of the member before, or the head of
the bucket. -/
def Bypassed (arena : Arena) (lists : FreeLists) (bucket : Bucket) (before rest : List Nat)
    (edited : FreeLists) (after : Arena) : Prop :=
  Arena.Confined (fun position => ∃ left, before.getLast? = some left
      ∧ Span (left + 8) (left + 16) position) arena after
    ∧ (∀ left, before.getLast? = some left → after.word (left + 8) = rest.head?.getD 0)
    ∧ ∀ other, edited.head other =
      if other = bucket then (before ++ rest).head?.map Block.mk else lists.head other

/-- The member before, if there is one, gets a new forward link. -/
theorem linkPast_returns (listed : Listed arena lists chains) {init : List Nat} {left : Nat}
    (place : chains bucket = (init ++ [left]) ++ offset :: rest) :
    Returns (do
        Block.setLinkAt (← (Block.mk left).nextSlot) (rest.head?.map Block.mk)
        return lists) arena
      (Bypassed arena lists bucket (init ++ [left]) rest) := by
  have bounds {block : Nat} (there : block ∈ chains bucket) : block + 16 ≤ arena.hi := by
    have real := (listed.listable bucket block there).real
    have inside := (listed.listable bucket block there).inside
    omega
  have below := arena.hi_lt
  have room : left + 16 ≤ arena.hi := bounds (by simp [place])
  refine Returns.step (lift_of_ok (Block.nextSlot_of_lt (by omega))) ?_
  refine (setLinkAt_returns rest.head? (by omega) ?_).bind ?_
  · intro block first
    have inside : block + 16 ≤ arena.hi := bounds (by simp [place, List.mem_of_head? first])
    omega
  · rintro ⟨⟩ after ⟨confined, stored⟩
    refine Returns.pure ⟨confined.mono fun position slot => ⟨left, by simp, slot⟩, ?_, ?_⟩
    · intro block last
      simp only [List.getLast?_append, List.getLast?_singleton, Option.some_or,
        Option.some.injEq] at last
      exact last ▸ stored
    · intro other
      split
      next same =>
        rw [listed.heads, same, place]
        cases init <;> simp
      · rfl

theorem setHead_bypasses (lists : FreeLists) :
    Bypassed arena lists bucket [] rest (lists.setHead bucket (rest.head?.map Block.mk)) arena := by
  refine ⟨.refl _ _, nofun, fun other => ?_⟩
  rw [head_setHead]
  rfl

theorem head_of_place (listed : Listed arena lists chains)
    (place : chains bucket = before ++ offset :: rest) :
    lists.head bucket = some ⟨offset⟩ ↔ before = [] := by
  rw [listed.heads, place]
  constructor
  · intro same
    cases before with
    | nil => rfl
    | cons node tail =>
      have nodup := listed.nodup bucket
      simp only [List.cons_append, List.head?_cons, Option.map_some, Option.some.injEq,
        Block.mk.injEq] at same
      simp [place, same] at nodup
  · rintro rfl
    rfl

theorem bypass_returns (listed : Listed arena lists chains)
    (place : chains bucket = before ++ offset :: rest) :
    Returns (lists.bypass bucket ⟨offset⟩ (before.getLast?.map Block.mk)
      (rest.head?.map Block.mk)) arena (Bypassed arena lists bucket before rest) := by
  rcases List.eq_nil_or_concat before with rfl | ⟨init, left, rfl⟩
  · have head : (lists.head bucket == some ⟨offset⟩) = true := by
      rw [beq_iff_eq]
      exact (head_of_place listed place).mpr rfl
    refine Returns.step (lift_of_ok (ensure_of_true _ head)) ?_
    exact Returns.pure (setHead_bypasses lists)
  · rw [List.concat_eq_append] at *
    simp only [List.getLast?_append, List.getLast?_singleton, Option.some_or, Option.map_some]
    exact linkPast_returns listed place

theorem removeOneWay_returns (listed : Listed arena lists chains)
    (place : chains bucket = before ++ offset :: rest) :
    Returns (lists.removeOneWay bucket ⟨offset⟩ (rest.head?.map Block.mk)) arena
      (Bypassed arena lists bucket before rest) := by
  unfold removeOneWay
  by_cases head : before = []
  · subst head
    rw [if_pos ((head_of_place listed place).mpr rfl)]
    exact Returns.pure (setHead_bypasses lists)
  · rw [if_neg fun same => head ((head_of_place listed place).mp same)]
    have nodup := listed.nodup bucket
    have short : before.length ≤ arena.hi := by
      have whole := listed.length_le bucket
      rw [place, List.length_append] at whole
      omega
    have found := predecessor_of_place listed arena.hi [] place short
    have first : lists.head bucket = before.head?.map Block.mk := by
      rw [listed.heads, place]
      cases before with
      | nil => exact absurd rfl head
      | cons node tail => rfl
    rw [← first] at found
    refine Returns.step (reading_of_ok found) ?_
    rcases List.eq_nil_or_concat before with rfl | ⟨init, left, rfl⟩
    · exact absurd rfl head
    · rw [List.concat_eq_append] at *
      simp only [List.getLast?_append, List.getLast?_singleton, Option.some_or, Option.map_some]
      exact linkPast_returns listed place

/-- Past the member, the neighbour behind is made to lead back to the neighbour before. -/
theorem removeTwoWay_returns (listed : Listed arena lists chains)
    (place : chains bucket = before ++ offset :: rest) (twoWay : isTwoWay bucket = true) :
    Returns (lists.removeTwoWay bucket ⟨offset⟩ (rest.head?.map Block.mk)) arena
      fun edited after => Listed after edited (chains.drop offset)
        ∧ Arena.Confined (Arena.LinksOf (fun left => before.getLast? = some left)
          fun right => isTwoWay bucket = true ∧ rest.head? = some right) arena after := by
  have bounds {block : Nat} (there : block ∈ chains bucket) : block + 32 ≤ arena.hi := by
    have large := (listed.listable bucket block there).large twoWay
    have inside := (listed.listable bucket block there).inside
    omega
  have inBefore {left : Nat} (last : before.getLast? = some left) : left ∈ chains bucket := by
    simp [place, List.mem_of_getLast? last]
  have inRest {right : Nat} (first : rest.head? = some right) : right ∈ chains bucket := by
    simp [place, List.mem_of_head? first]
  have below := arena.hi_lt
  have room : offset + 32 ≤ arena.hi := bounds (by simp [place])
  have back : Block.linkAt (offset + 16) arena = .ok (before.getLast?.map Block.mk) := by
    apply Block.linkAt_of_word before.getLast? _ (by omega)
      ((links_of_place listed place).2 twoWay)
    intro left last
    exact (listed.listable bucket left (inBefore last)).nonzero
  unfold removeTwoWay
  refine Returns.step (lift_of_ok (Block.prevSlot_of_lt (by omega))) ?_
  refine Returns.step (reading_of_ok back) ?_
  refine (bypass_returns listed place).bind ?_
  rintro edited middle ⟨front, forward, heads⟩
  refine (setPrevFree_returns rest.head? before.getLast? ?_ ?_).bind ?_
  · intro right first
    have room := bounds (inRest first)
    rw [front.hi]
    omega
  · intro left last
    have room := bounds (inBefore last)
    omega
  · rintro ⟨⟩ after ⟨rear, backward⟩
    have ahead : Arena.Confined (Arena.LinksOf (fun left => before.getLast? = some left)
        fun right => isTwoWay bucket = true ∧ rest.head? = some right) arena middle :=
      front.mono fun _ slot => .inl slot
    have behind : Arena.Confined (Arena.LinksOf (fun left => before.getLast? = some left)
        fun right => isTwoWay bucket = true ∧ rest.head? = some right) middle after :=
      rear.mono fun _ ⟨right, first, slot⟩ => .inr ⟨right, ⟨twoWay, first⟩, slot⟩
    have confined := ahead.trans behind
    refine Returns.pure ⟨listed.unlink place confined ?_ (fun _ => backward) heads, confined⟩
    intro left last
    -- The neighbours are two blocks, so the backward link is not where the forward link is.
    rw [rear.word, forward left last]
    rintro position slot ⟨right, first, other⟩
    have nodup := listed.nodup bucket
    have different : left ≠ right := by
      rintro rfl
      rw [place] at nodup
      exact (List.nodup_append.mp nodup).2.2 left (List.mem_of_getLast? last) left
        (List.mem_cons_of_mem _ (List.mem_of_head? first)) rfl
    have apart := listed.apart bucket bucket left (inBefore last) right (inRest first) different
    have leftLarge := (listed.listable bucket left (inBefore last)).large twoWay
    have rightLarge := (listed.listable bucket right (inRest first)).large twoWay
    unfold Arena.Apart Span at *
    omega

/-- Removal erases a member from the list that holds it. -/
theorem remove_returns (listed : Listed arena lists chains)
    (place : chains bucket = before ++ offset :: rest) :
    Returns (lists.remove ⟨offset⟩) arena fun edited after =>
      Listed after edited (chains.drop offset)
        ∧ Arena.Confined (fun position => ∃ block,
            (before.getLast? = some block ∨ rest.head? = some block)
              ∧ arena.LinkSlot block position) arena after := by
  have member : offset ∈ chains bucket := by simp [place]
  have listable := listed.listable bucket offset member
  have real := listable.real
  have inside := listable.inside
  have size : (Block.mk offset).size arena = .ok (arena.sizeAt offset) :=
    Block.size_of_le (by omega)
  have next := nextFree_of_place listed place
  have slots (position : Nat) (touched : Arena.LinksOf (fun left => before.getLast? = some left)
      (fun right => isTwoWay bucket = true ∧ rest.head? = some right) position) : ∃ block,
      (before.getLast? = some block ∨ rest.head? = some block) ∧ arena.LinkSlot block position := by
    refine Arena.linkSlot_of_linksOf ?_ ?_ touched
    · intro left last
      have there : left ∈ chains bucket := by simp [place, List.mem_of_getLast? last]
      exact ⟨.inl last, (listed.listable bucket left there).real⟩
    · rintro right ⟨twoWay, first⟩
      have there : right ∈ chains bucket := by simp [place, List.mem_of_head? first]
      exact ⟨.inr first, (listed.listable bucket right there).large twoWay⟩
  unfold remove
  refine Returns.step (reading_of_ok size) ?_
  refine Returns.step (reading_of_ok next) ?_
  simp only [listable.classified]
  by_cases twoWay : isTwoWay bucket = true
  · rw [if_pos twoWay]
    refine (removeTwoWay_returns listed place twoWay).mono ?_
    rintro edited after ⟨remaining, confined⟩
    exact ⟨remaining, confined.mono slots⟩
  · rw [if_neg twoWay]
    refine (removeOneWay_returns listed place).mono ?_
    rintro edited after ⟨front, forward, heads⟩
    have confined : Arena.Confined (Arena.LinksOf (fun left => before.getLast? = some left)
        fun right => isTwoWay bucket = true ∧ rest.head? = some right) arena after :=
      front.mono fun _ slot => .inl slot
    exact ⟨listed.unlink place confined forward (fun both => absurd both twoWay) heads,
      confined.mono slots⟩

end FreeLists

end BoundaryTag
