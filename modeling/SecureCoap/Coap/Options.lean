import SecureCoap.Bytes

/-!
# Options of a message

A message has options, each a number with a list of values, in ascending order of the numbers. An
option that was cleared keeps its entry but has no values.
-/

namespace SecureCoap

namespace Coap

/-- Option values by number. -/
structure Options where
  entries : List (Nat × List Bytes)
  ascending : entries.Pairwise fun x y => x.1 < y.1
deriving DecidableEq, Repr

namespace Options

/-! ### Numbers -/

def uriHost : Nat := 3
def observe : Nat := 6
def uriPort : Nat := 7
def oscore : Nat := 9
def uriPath : Nat := 11
def edhoc : Nat := 21
def block2 : Nat := 23
def block1 : Nat := 27
def size2 : Nat := 28
def proxyUri : Nat := 35
def proxyScheme : Nat := 39
def size1 : Nat := 60
def noResponse : Nat := 258

/-! ### Reading -/

def empty : Options := ⟨[], .nil⟩

/-- The values of an option, or none if it has no entry. -/
def values? (opts : Options) (number : Nat) : Option (List Bytes) := opts.entries.lookup number

def values (opts : Options) (number : Nat) : List Bytes := (opts.values? number).getD []

def has (opts : Options) (number : Nat) : Bool := !(opts.values number).isEmpty

/-! ### Changing one entry -/

/-- Replaces the entry of an option, which is entered if it is not there. -/
def alterEntries (number : Nat) (change : List Bytes → List Bytes) :
    List (Nat × List Bytes) → List (Nat × List Bytes)
  | [] => [(number, change [])]
  | (n, vs) :: es =>
    if number < n then (number, change []) :: (n, vs) :: es
    else if number = n then (n, change vs) :: es
    else (n, vs) :: alterEntries number change es

theorem lt_of_mem_alterEntries {number low : Nat} {change : List Bytes → List Bytes}
    {es : List (Nat × List Bytes)} (hn : low < number) (h : ∀ e ∈ es, low < e.1) :
    ∀ e ∈ alterEntries number change es, low < e.1 := by
  induction es with
  | nil =>
    intro e he
    simp only [alterEntries, List.mem_singleton] at he
    subst he
    exact hn
  | cons x es ih =>
    intro e he
    have hx := h x (List.mem_cons_self ..)
    have hes : ∀ e ∈ es, low < e.1 := fun e he => h e (List.mem_cons_of_mem _ he)
    unfold alterEntries at he
    split at he
    · rcases List.mem_cons.1 he with rfl | he
      · exact hn
      · exact h e he
    · split at he
      · rcases List.mem_cons.1 he with rfl | he
        · exact hx
        · exact hes e he
      · rcases List.mem_cons.1 he with rfl | he
        · exact hx
        · exact ih hes e he

theorem ascending_alterEntries (number : Nat) (change : List Bytes → List Bytes)
    {es : List (Nat × List Bytes)} (h : es.Pairwise fun x y => x.1 < y.1) :
    (alterEntries number change es).Pairwise fun x y => x.1 < y.1 := by
  induction es with
  | nil => simp [alterEntries]
  | cons x es ih =>
    have hx := (List.pairwise_cons.1 h).1
    have hes := (List.pairwise_cons.1 h).2
    unfold alterEntries
    split
    · next hlt =>
      refine List.pairwise_cons.2 ⟨fun e he => ?_, h⟩
      rcases List.mem_cons.1 he with rfl | he
      · exact hlt
      · exact Nat.lt_trans hlt (hx e he)
    · split
      · exact List.pairwise_cons.2 ⟨hx, hes⟩
      · next hle hne =>
        exact List.pairwise_cons.2 ⟨lt_of_mem_alterEntries (by omega) hx, ih hes⟩

def alter (opts : Options) (number : Nat) (change : List Bytes → List Bytes) : Options :=
  ⟨alterEntries number change opts.entries, ascending_alterEntries number change opts.ascending⟩

def add (opts : Options) (number : Nat) (value : Bytes) : Options :=
  opts.alter number (· ++ [value])

/-- Gives an option these values and no others. -/
def set (opts : Options) (number : Nat) (values : List Bytes) : Options :=
  opts.alter number fun _ => values

/-! ### Changing all entries -/

/-- Takes away the values of all options whose number is `gone`; the entries stay. -/
def clearWhere (opts : Options) (gone : Nat → Bool) : Options where
  entries := opts.entries.map fun (n, vs) => (n, if gone n then [] else vs)
  ascending := List.Pairwise.map _ (fun _ _ h => h) opts.ascending

/-- Takes away the values of an option; an entry stays if there was one. -/
def clear (opts : Options) (number : Nat) : Options := opts.clearWhere (· = number)

def filter (opts : Options) (kept : Nat → Bool) : Options where
  entries := opts.entries.filter fun (n, _) => kept n
  ascending := opts.ascending.filter _

/-- Enters all values of other options, in place of those there. -/
def overwrite (opts others : Options) : Options :=
  others.entries.foldl (fun opts (n, vs) => opts.set n vs) opts

end Options

end Coap

end SecureCoap
