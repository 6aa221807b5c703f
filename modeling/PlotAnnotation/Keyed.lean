/-!
# Entries under keys, in order

A list of entries keeps for each key the place where the key first came.  Writing under a key that
is there changes the entry at its place; a new key goes to the end.  The keys therefore stay
distinct if they were.
-/

namespace PlotAnnotation.Keyed

variable {α : Type}

/-- The keys of the entries, in order. -/
def keys (entries : List (String × α)) : List String :=
  entries.map Prod.fst

/-- What is under a key. -/
def find? (key : String) : List (String × α) → Option α
  | [] => none
  | (k, a) :: rest => if k = key then some a else find? key rest

/-- Changes what is under a key; `f` is given what is there, if anything is. -/
def update (key : String) (f : Option α → α) : List (String × α) → List (String × α)
  | [] => [(key, f none)]
  | (k, a) :: rest => if k = key then (k, f (some a)) :: rest else (k, a) :: update key f rest

/-- Writes under a key. -/
def put (key : String) (a : α) : List (String × α) → List (String × α) :=
  update key fun _ => a

/-- Writes entry after entry. -/
def putAll (entries : List (String × α)) (new : List (String × α)) : List (String × α) :=
  new.foldl (fun es e => put e.1 e.2 es) entries

@[simp] theorem keys_nil : keys ([] : List (String × α)) = [] := rfl

@[simp] theorem keys_cons (e : String × α) (es : List (String × α)) :
    keys (e :: es) = e.1 :: keys es := rfl

/-- Writing keeps the keys in place and adds a new one at the end. -/
theorem keys_update (key : String) (f : Option α → α) (es : List (String × α)) :
    keys (update key f es) = if key ∈ keys es then keys es else keys es ++ [key] := by
  induction es with
  | nil => rfl
  | cons e es ih =>
    obtain ⟨k, a⟩ := e
    by_cases h : k = key
    · simp [update, h]
    · have h' : key ≠ k := fun e => h e.symm
      simp only [update, if_neg h, keys_cons, ih, List.mem_cons, h', false_or]
      split <;> rfl

/-- Writing keeps the keys distinct. -/
theorem nodup_update {key : String} {f : Option α → α} {es : List (String × α)}
    (h : (keys es).Nodup) : (keys (update key f es)).Nodup := by
  rw [keys_update]
  split
  · exact h
  · next hk => exact List.nodup_append.2 ⟨h, by simp, by rintro a ha b hb rfl; simp_all⟩

/-- Writing under a key keeps keys distinct. -/
theorem nodup_put {key : String} {a : α} {es : List (String × α)} (h : (keys es).Nodup) :
    (keys (put key a es)).Nodup :=
  nodup_update h

/-- Writing any entries keeps keys distinct. -/
theorem nodup_putAll {es new : List (String × α)} (h : (keys es).Nodup) :
    (keys (putAll es new)).Nodup := by
  induction new generalizing es with
  | nil => exact h
  | cons e new ih => exact ih (nodup_put h)

/-- What is under a key after writing under a key. -/
theorem find?_update (k key : String) (f : Option α → α) (es : List (String × α)) :
    find? k (update key f es) = if k = key then some (f (find? key es)) else find? k es := by
  induction es with
  | nil =>
    by_cases h : k = key
    · simp [update, find?, h]
    · simp [update, find?, h, Ne.symm h]
  | cons e es ih =>
    obtain ⟨k', a⟩ := e
    by_cases h : k' = key
    · subst h
      by_cases hk : k = k'
      · simp [update, find?, hk]
      · simp [update, find?, hk, Ne.symm hk]
    · by_cases hk : k' = k
      · subst hk
        simp [update, find?, h]
      · simp [update, find?, h, hk, ih]

/-- What was written under a key is found there, and the rest is as it was. -/
theorem find?_put (k key : String) (a : α) (es : List (String × α)) :
    find? k (put key a es) = if k = key then some a else find? k es :=
  find?_update k key _ es

/-- There is something under a key exactly if the key is one of the keys. -/
theorem isSome_find? (key : String) (es : List (String × α)) :
    (find? key es).isSome = true ↔ key ∈ keys es := by
  induction es with
  | nil => simp [find?]
  | cons e es ih =>
    obtain ⟨k, a⟩ := e
    by_cases h : k = key
    · simp [find?, h]
    · simp [find?, h, ih, Ne.symm h]

/-- There is something under each of the keys. -/
theorem exists_find?_of_mem {key : String} {es : List (String × α)} (h : key ∈ keys es) :
    ∃ a, find? key es = some a :=
  Option.isSome_iff_exists.1 ((isSome_find? key es).2 h)

end PlotAnnotation.Keyed
