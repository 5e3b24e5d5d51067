import BoundaryTag.Proofs.Chains

/-!
# Edits of the free lists

What has to be written to take a member out of a chain, or to put a block in front of one: at most
the forward link of the neighbour before, the backward link of the neighbour behind and the links of
the block itself. Any arena in which just these words have changed accordingly, with the right
heads, spells out the edited chains. Which writes bring the words about does not matter here.
-/
namespace BoundaryTag.Listed

open FreeLists (isTwoWay)

variable {arena after : Arena} {lists edited : FreeLists} {chains : Chains} {bucket : Bucket}
  {offset : Nat} {before rest : List Nat}

/-- A block is on the list of its own class only. -/
theorem bucket_unique (listed : Listed arena lists chains) {other : Bucket}
    (here : offset ∈ chains bucket) (there : offset ∈ chains other) : bucket = other :=
  (listed.listable bucket offset here).classified.symm.trans
    (listed.listable other offset there).classified

/-- Members are different offsets below the break, so there are not more of them than bytes. -/
theorem length_le (listed : Listed arena lists chains) (bucket : Bucket) :
    (chains bucket).length ≤ arena.hi := by
  have subset : chains bucket ⊆ List.range arena.hi := by
    intro offset member
    have real := (listed.listable bucket offset member).real
    have inside := (listed.listable bucket offset member).inside
    rw [List.mem_range]
    omega
  simpa using (listed.nodup bucket).length_le_of_subset subset

/-- Chains survive every change that spares the headers and the links of their members. -/
theorem confined {touched : Nat → Prop} (listed : Listed arena lists chains)
    (confined : Arena.Confined touched arena after)
    (away : ∀ bucket, ∀ offset ∈ chains bucket, ∀ position,
      arena.Kept offset position → ¬touched position) : Listed after lists chains := by
  have kept (bucket : Bucket) (offset : Nat) (member : offset ∈ chains bucket) :=
    confined.kept (listed.listable bucket offset member).real (away bucket offset member)
  refine ⟨listed.heads, ?_, listed.nodup, ?_, ?_⟩
  · intro bucket
    refine (listed.links bucket).congr (fun offset member => (kept bucket offset member).2.1) ?_
    intro twoWay offset member
    exact (kept bucket offset member).2.2 ((listed.listable bucket offset member).large twoWay)
  · intro bucket offset member
    exact (listed.listable bucket offset member).congr confined.hi (kept bucket offset member).1
  · intro bucket other left here right there different
    exact (listed.apart bucket other left here right there different).congr
      (kept bucket left here).1 (kept other right there).1

/-- In the bucket of the member the rest of the chain closes up; the other buckets do not hold it.
-/
theorem drop_eq (listed : Listed arena lists chains)
    (place : chains bucket = before ++ offset :: rest) (other : Bucket) :
    chains.drop offset other = if other = bucket then before ++ rest else chains other := by
  have nodup := listed.nodup bucket
  rw [place] at nodup
  have absent : offset ∉ before := by
    intro member
    exact (List.nodup_append.mp nodup).2.2 offset member offset List.mem_cons_self rfl
  split
  next same =>
    rw [same, Chains.drop, place, List.erase_append_right _ absent, List.erase_cons_head]
  next different =>
    apply List.erase_of_not_mem
    intro member
    have here : offset ∈ chains bucket := by simp [place]
    exact different (listed.bucket_unique member here)

/-- What is written when a member is taken out are links of its neighbours. -/
theorem relinking_of_unlink (listed : Listed arena lists chains)
    (place : chains bucket = before ++ offset :: rest)
    (confined : Arena.Confined (Arena.LinksOf (fun left => before.getLast? = some left)
      fun right => isTwoWay bucket = true ∧ rest.head? = some right) arena after) :
    arena.Relinking after (fun member => ∃ bucket, member ∈ chains bucket)
      (fun left => before.getLast? = some left)
      (fun right => isTwoWay bucket = true ∧ rest.head? = some right) := by
  refine ⟨confined, ?_, ?_, ?_, ?_⟩
  · rintro member ⟨other, there⟩
    exact (listed.listable other member there).real
  · rintro left right ⟨first, here⟩ ⟨second, there⟩
    exact listed.apart first second left here right there
  · intro left last
    exact ⟨bucket, by simp [place, List.mem_of_getLast? last]⟩
  · rintro right ⟨twoWay, first⟩
    have there : right ∈ chains bucket := by simp [place, List.mem_of_head? first]
    exact ⟨⟨bucket, there⟩, (listed.listable bucket right there).large twoWay⟩

/-- Taking a member out: the neighbour before links to the neighbour behind and, in a two-way
bucket, the other way round. -/
theorem unlink (listed : Listed arena lists chains)
    (place : chains bucket = before ++ offset :: rest)
    (confined : Arena.Confined (Arena.LinksOf (fun left => before.getLast? = some left)
      fun right => isTwoWay bucket = true ∧ rest.head? = some right) arena after)
    (forward : ∀ left, before.getLast? = some left → after.word (left + 8) = rest.head?.getD 0)
    (backward : isTwoWay bucket = true → ∀ right, rest.head? = some right →
      after.word (right + 16) = before.getLast?.getD 0)
    (heads : ∀ other, edited.head other =
      if other = bucket then (before ++ rest).head?.map Block.mk else lists.head other) :
    Listed after edited (chains.drop offset) := by
  have relinking := listed.relinking_of_unlink place confined
  have sizes {other : Bucket} {member : Nat} (there : member ∈ chains other) :
      after.sizeAt member = arena.sizeAt member :=
    relinking.sizeAt ⟨other, there⟩
  have forwards {other : Bucket} {member : Nat} (there : member ∈ chains other)
      (stays : before.getLast? ≠ some member) :
      after.word (member + 8) = arena.word (member + 8) :=
    relinking.forward_same ⟨other, there⟩ stays
  have backwards {other : Bucket} {member : Nat} (there : member ∈ chains other)
      (twoWay : isTwoWay other = true) (stays : rest.head? ≠ some member) :
      after.word (member + 16) = arena.word (member + 16) :=
    relinking.backward_same ⟨other, there⟩ ((listed.listable other member there).large twoWay)
      fun changes => stays changes.2
  have subset {other : Bucket} {member : Nat} (there : member ∈ chains.drop offset other) :
      member ∈ chains other :=
    List.mem_of_mem_erase there
  refine ⟨?_, ?_, fun other => (listed.nodup other).erase offset, ?_, ?_⟩
  · intro other
    rw [heads, listed.drop_eq place]
    split
    · rfl
    · exact listed.heads other
  · intro other
    rw [listed.drop_eq place]
    split
    next same =>
      subst same
      have links := listed.links other
      have nodup := listed.nodup other
      rw [place] at links nodup
      exact links.unlink nodup (fun member there => forwards (place ▸ there))
        (fun twoWay member there => backwards (place ▸ there) twoWay) forward backward
    next different =>
      -- The neighbours are in the member's own bucket.
      have elsewhere {member : Nat} (there : member ∈ chains other) : member ∉ chains bucket :=
        fun here => different (listed.bucket_unique there here)
      refine (listed.links other).congr ?_ ?_
      · refine fun member there => forwards there fun last => elsewhere there ?_
        simp [place, List.mem_of_getLast? last]
      · refine fun twoWay member there => backwards there twoWay fun first => elsewhere there ?_
        simp [place, List.mem_of_head? first]
  · intro other member there
    exact (listed.listable other member (subset there)).congr confined.hi (sizes (subset there))
  · intro first second left here right there different
    exact (listed.apart first second left (subset here) right (subset there) different).congr
      (sizes (subset here)) (sizes (subset there))

/-- What is written when a block is put in front are its links and one of the old head. -/
theorem relinking_of_link (listed : Listed arena lists chains)
    (listable : arena.Listable bucket offset)
    (fresh : ∀ other, ∀ member ∈ chains other, arena.Apart offset member)
    (confined : Arena.Confined (Arena.LinksOf (fun block => block = offset)
      fun block => isTwoWay bucket = true
        ∧ (block = offset ∨ (chains bucket).head? = some block)) arena after) :
    arena.Relinking after (fun block => block = offset ∨ ∃ bucket, block ∈ chains bucket)
      (fun block => block = offset)
      (fun block => isTwoWay bucket = true
        ∧ (block = offset ∨ (chains bucket).head? = some block)) := by
  refine ⟨confined, ?_, ?_, fun _ => .inl, ?_⟩
  · rintro block (rfl | ⟨other, there⟩)
    · exact listable.real
    · exact (listed.listable other block there).real
  · rintro left right (rfl | ⟨first, here⟩) (rfl | ⟨second, there⟩) different
    · exact absurd rfl different
    · exact fresh second right there
    · exact (fresh first left here).symm
    · exact listed.apart first second left here right there different
  · rintro block ⟨twoWay, rfl | first⟩
    · exact ⟨.inl rfl, listable.large twoWay⟩
    · have there : block ∈ chains bucket := List.mem_of_head? first
      exact ⟨.inr ⟨bucket, there⟩, (listed.listable bucket block there).large twoWay⟩

/-- Putting a block in front: it links to the old head and, in a two-way bucket, the old head links
back to it. -/
theorem link (listed : Listed arena lists chains) (listable : arena.Listable bucket offset)
    (fresh : ∀ other, ∀ member ∈ chains other, arena.Apart offset member)
    (confined : Arena.Confined (Arena.LinksOf (fun block => block = offset)
      fun block => isTwoWay bucket = true
        ∧ (block = offset ∨ (chains bucket).head? = some block)) arena after)
    (forward : after.word (offset + 8) = (chains bucket).head?.getD 0)
    (backward : isTwoWay bucket = true → after.word (offset + 16) = 0)
    (oldHead : isTwoWay bucket = true → ∀ head, (chains bucket).head? = some head →
      after.word (head + 16) = offset)
    (heads : ∀ other, edited.head other =
      if other = bucket then some ⟨offset⟩ else lists.head other) :
    Listed after edited (chains.push bucket offset) := by
  have absent (other : Bucket) (member : Nat) (there : member ∈ chains other) :
      member ≠ offset := by
    rintro rfl
    have apart := fresh other member there
    have real := listable.real
    unfold Arena.Apart at apart
    omega
  have relinking := listed.relinking_of_link listable fresh confined
  have sizes {other : Bucket} {member : Nat} (there : member ∈ chains other) :
      after.sizeAt member = arena.sizeAt member :=
    relinking.sizeAt (.inr ⟨other, there⟩)
  have forwards {other : Bucket} {member : Nat} (there : member ∈ chains other) :
      after.word (member + 8) = arena.word (member + 8) :=
    relinking.forward_same (.inr ⟨other, there⟩) (absent other member there)
  have backwards {other : Bucket} {member : Nat} (there : member ∈ chains other)
      (twoWay : isTwoWay other = true) (stays : (chains bucket).head? ≠ some member) :
      after.word (member + 16) = arena.word (member + 16) := by
    refine relinking.backward_same (.inr ⟨other, there⟩)
      ((listed.listable other member there).large twoWay) ?_
    rintro ⟨-, same | first⟩
    · exact absent other member there same
    · exact stays first
  have cases {other : Bucket} {block : Nat} (there : block ∈ chains.push bucket offset other) :
      block = offset ∧ other = bucket ∨ block ∈ chains other := by
    unfold Chains.push at there
    split at there
    next same => exact (List.mem_cons.mp there).imp_left fun first => ⟨first, same⟩
    next => exact .inr there
  have size : after.sizeAt offset = arena.sizeAt offset := relinking.sizeAt (.inl rfl)
  refine ⟨?_, ?_, ?_, ?_, ?_⟩
  · intro other
    rw [heads]
    unfold Chains.push
    split
    · rfl
    · exact listed.heads other
  · intro other
    unfold Chains.push
    split
    next same =>
      subst same
      refine ⟨forward, backward, ?_⟩
      exact (listed.links other).repoint (listed.nodup other) (fun member there => forwards there)
        oldHead fun twoWay member there => backwards there twoWay
    next different =>
      refine (listed.links other).congr (fun member there => forwards there) ?_
      intro twoWay member there
      refine backwards there twoWay fun first => ?_
      exact different (listed.bucket_unique there (List.mem_of_head? first))
  · intro other
    unfold Chains.push
    split
    · exact List.nodup_cons.mpr
        ⟨fun member => absent other offset member rfl, listed.nodup other⟩
    · exact listed.nodup other
  · intro other block there
    rcases cases there with ⟨rfl, rfl⟩ | there
    · exact listable.congr confined.hi size
    · exact (listed.listable other block there).congr confined.hi (sizes there)
  · intro first second left here right there different
    rcases cases here with ⟨rfl, -⟩ | old <;> rcases cases there with ⟨rfl, -⟩ | other
    · exact absurd rfl different
    · exact (fresh second right other).congr size (sizes other)
    · exact (fresh first left old).symm.congr (sizes old) size
    · exact (listed.apart first second left old right other different).congr (sizes old)
        (sizes other)

end BoundaryTag.Listed
