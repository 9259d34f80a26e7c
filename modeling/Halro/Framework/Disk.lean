import Halro.Framework.Bytes
import Halro.Framework.FinMap

/-!
# Files with names and contents

A name leads to an inode, and an inode has the contents.  A file that is open is an inode: writing to
it goes on after its name was changed or taken away, and opening a name for writing truncates the
inode that is there.  Renaming moves a name over another one.

`Same d d' n` says that a change of the disk is none as far as the name `n` can tell.  On a disk
where no two names share an inode (`Sound`), every operation is the same for the names it is not
called with, which is the frame rule of programs that work on files of their own.
-/

namespace Framework

structure Disk (N : Type) where
  names : FinMap N ℕ := ∅
  inodes : ℕ → Bytes := fun _ => []
  fresh : ℕ := 0

namespace Disk

variable {N : Type}

def setInode (i : ℕ) (b : Bytes) (d : Disk N) : Disk N :=
  { d with inodes := fun j => if j = i then b else d.inodes j }

lemma inodes_setInode (d : Disk N) (i j : ℕ) (b : Bytes) :
    (d.setInode i b).inodes j = if j = i then b else d.inodes j := rfl

variable [DecidableEq N]

/-- The contents a name leads to. -/
def read (d : Disk N) (n : N) : Option Bytes := (d.names.lookup n).map d.inodes

/-- Opening a name for writing: a new file, or the one that is there without its contents. -/
def create (n : N) (d : Disk N) : Disk N :=
  match d.names.lookup n with
  | some i => d.setInode i []
  | none => setInode d.fresh [] { d with names := d.names.insert n d.fresh, fresh := d.fresh + 1 }

/-- Bytes with others written over them from an offset. -/
def overwrite (contents : Bytes) (offset : ℕ) (b : Bytes) : Bytes :=
  contents.take offset ++ List.replicate (offset - contents.length) 0 ++ b ++
    contents.drop (offset + b.length)

def writeAt (i offset : ℕ) (b : Bytes) (d : Disk N) : Disk N :=
  d.setInode i (overwrite (d.inodes i) offset b)

/-- Renaming a file that is there; the name it takes may be taken. -/
def rename (a b : N) (d : Disk N) : Disk N :=
  match d.names.lookup a with
  | some i => { d with names := (d.names.erase a).insert b i }
  | none => d

def remove (n : N) (d : Disk N) : Disk N := { d with names := d.names.erase n }

/-- No two names share an inode, and a new inode is not in use. -/
structure Sound (d : Disk N) : Prop where
  injective : ∀ {n m i}, d.names.lookup n = some i → d.names.lookup m = some i → n = m
  bound : ∀ {n i}, d.names.lookup n = some i → i < d.fresh

/-- Two disks between which a name does not tell. -/
structure Same (d d' : Disk N) (n : N) : Prop where
  name : d'.names.lookup n = d.names.lookup n
  contents : ∀ i, d.names.lookup n = some i → d'.inodes i = d.inodes i

variable {d d' : Disk N} {n m : N} {i : ℕ} {b : Bytes}

lemma Same.read (h : Same d d' n) : d'.read n = d.read n := by
  rw [Disk.read, Disk.read, h.name]
  cases hname : d.names.lookup n with
  | none => rfl
  | some i => rw [Option.map_some, Option.map_some, h.contents i hname]

lemma read_of_lookup (h : d.names.lookup n = some i) : d.read n = some (d.inodes i) := by
  rw [Disk.read, h, Option.map_some]

/-- Writing at the end of a file. -/
lemma overwrite_end (contents b : Bytes) : overwrite contents contents.length b = contents ++ b := by
  simp [overwrite]

lemma sound_empty : Sound ({} : Disk N) where
  injective := fun h _ => by simp at h
  bound := fun h => by simp at h

/-! ## Opening for writing -/

lemma Sound.create (hd : d.Sound) (n : N) : (d.create n).Sound := by
  unfold Disk.create
  cases hn : d.names.lookup n with
  | some i => exact ⟨hd.injective, hd.bound⟩
  | none =>
    refine ⟨fun {a b i} ha hb => ?_, fun {a i} ha => ?_⟩
    · rcases FinMap.lookup_insert_cases ha with ⟨ha', hi⟩ | ⟨-, ha⟩
      · rcases FinMap.lookup_insert_cases hb with ⟨hb', -⟩ | ⟨-, hb⟩
        · exact ha'.trans hb'.symm
        · exact absurd (hd.bound hb) (hi ▸ lt_irrefl _)
      · rcases FinMap.lookup_insert_cases hb with ⟨-, hi⟩ | ⟨-, hb⟩
        · exact absurd (hd.bound ha) (hi ▸ lt_irrefl _)
        · exact hd.injective ha hb
    · rcases FinMap.lookup_insert_cases ha with ⟨-, hi⟩ | ⟨-, ha⟩
      · exact hi ▸ Nat.lt_succ_self _
      · exact Nat.lt_succ_of_lt (hd.bound ha)

lemma exists_lookup_create (d : Disk N) (n : N) :
    ∃ i, (d.create n).names.lookup n = some i ∧ (d.create n).inodes i = [] := by
  unfold create
  cases hn : d.names.lookup n with
  | some i => exact ⟨i, hn, if_pos rfl⟩
  | none => exact ⟨d.fresh, Finmap.lookup_insert _, if_pos rfl⟩

lemma same_create (hd : d.Sound) (h : m ≠ n) : Same d (d.create n) m := by
  unfold create
  cases hn : d.names.lookup n with
  | some i =>
    refine ⟨rfl, fun j hj => if_neg fun hij => h ?_⟩
    exact hd.injective (hij ▸ hj) hn
  | none =>
    refine ⟨?_, fun j hj => if_neg fun hij => ?_⟩
    · show (d.names.insert n d.fresh).lookup m = d.names.lookup m
      rw [FinMap.lookup_insert_ite, if_neg h]
    · exact absurd (hd.bound hj) (by rw [hij]; exact lt_irrefl _)

/-! ## Writing -/

lemma Sound.writeAt (hd : d.Sound) (i offset : ℕ) (b : Bytes) : (d.writeAt i offset b).Sound :=
  ⟨hd.injective, hd.bound⟩

lemma same_writeAt (hd : d.Sound) (hn : d.names.lookup n = some i) (h : m ≠ n) (offset : ℕ)
    (b : Bytes) : Same d (d.writeAt i offset b) m :=
  ⟨rfl, fun _ hj => if_neg fun hij => h (hd.injective (hij ▸ hj) hn)⟩

omit [DecidableEq N] in
lemma inodes_writeAt_end (d : Disk N) (i : ℕ) (b : Bytes) :
    (d.writeAt i (d.inodes i).length b).inodes i = d.inodes i ++ b := by
  rw [writeAt, inodes_setInode, if_pos rfl, overwrite_end]

/-! ## Renaming and removing -/

lemma Sound.rename (hd : d.Sound) (a b : N) : (d.rename a b).Sound := by
  unfold Disk.rename
  cases ha : d.names.lookup a with
  | none => exact hd
  | some i =>
    have hname : ∀ {n j}, ((d.names.erase a).insert b i).lookup n = some j →
        n = b ∧ j = i ∨ n ≠ a ∧ n ≠ b ∧ d.names.lookup n = some j := by
      intro n j hn
      rw [FinMap.lookup_insert_ite, FinMap.lookup_erase_ite] at hn
      split_ifs at hn with hb ha'
      · exact .inl ⟨hb, (Option.some.inj hn).symm⟩
      · exact .inr ⟨ha', hb, hn⟩
    refine ⟨fun {n m j} hn hm => ?_, fun {n j} hn => ?_⟩
    · rcases hname hn with ⟨hnb, hj⟩ | ⟨hna, -, hn⟩
      · rcases hname hm with ⟨hmb, -⟩ | ⟨hma, -, hm⟩
        · exact hnb.trans hmb.symm
        · exact absurd (hd.injective (hj ▸ hm) ha) hma
      · rcases hname hm with ⟨-, hj⟩ | ⟨-, -, hm⟩
        · exact absurd (hd.injective (hj ▸ hn) ha) hna
        · exact hd.injective hn hm
    · rcases hname hn with ⟨-, hj⟩ | ⟨-, -, hn⟩
      · rw [hj]
        exact hd.bound ha
      · exact hd.bound hn

lemma same_rename {a : N} (ha : m ≠ a) (hb : m ≠ n) : Same d (d.rename a n) m := by
  unfold Disk.rename
  cases d.names.lookup a with
  | none => exact ⟨rfl, fun _ _ => rfl⟩
  | some i =>
    refine ⟨?_, fun _ _ => rfl⟩
    rw [FinMap.lookup_insert_ite, if_neg hb, FinMap.lookup_erase_ite, if_neg ha]

lemma read_rename {a : N} {contents : Bytes} (h : d.read a = some contents) :
    (d.rename a n).read n = some contents := by
  obtain ⟨i, hi, hcont⟩ := Option.map_eq_some_iff.mp h
  rw [Disk.rename, hi, Disk.read]
  rw [Finmap.lookup_insert, Option.map_some, hcont]

lemma Sound.remove (hd : d.Sound) (n : N) : (d.remove n).Sound := by
  have hname : ∀ {m i}, (d.remove n).names.lookup m = some i → d.names.lookup m = some i := by
    intro m i hm
    rw [Disk.remove, FinMap.lookup_erase_ite] at hm
    split_ifs at hm
    exact hm
  exact ⟨fun ha hb => hd.injective (hname ha) (hname hb), fun ha => hd.bound (hname ha)⟩

lemma same_remove (h : m ≠ n) : Same d (d.remove n) m := by
  refine ⟨?_, fun _ _ => rfl⟩
  rw [Disk.remove, FinMap.lookup_erase_ite, if_neg h]

end Disk

end Framework
