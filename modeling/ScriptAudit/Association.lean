/-! Lists of entries in which each key occurs once and keeps the place where it was first
put; a later value replaces the earlier one there. -/
namespace ScriptAudit.Association

variable {κ ν : Type} [DecidableEq κ]

def put (key : κ) (value : ν) : List (κ × ν) → List (κ × ν)
  | [] => [(key, value)]
  | entry :: rest => if entry.1 = key then (key, value) :: rest else entry :: put key value rest

def update (entries additions : List (κ × ν)) : List (κ × ν) :=
  additions.foldl (fun all entry => put entry.1 entry.2 all) entries

def get? (key : κ) (entries : List (κ × ν)) : Option ν :=
  (entries.find? fun entry => entry.1 = key).map (·.2)

theorem get?_cons_self (key : κ) (value : ν) (entries : List (κ × ν)) :
    get? key ((key, value) :: entries) = some value := by
  simp [get?]

theorem get?_cons_of_ne {key other : κ} (value : ν) (entries : List (κ × ν))
    (apart : other ≠ key) : get? key ((other, value) :: entries) = get? key entries := by
  simp [get?, apart]

theorem get?_put_self (key : κ) (value : ν) (entries : List (κ × ν)) :
    get? key (put key value entries) = some value := by
  induction entries with
  | nil => exact get?_cons_self key value []
  | cons entry rest ih =>
      unfold put
      by_cases same : entry.1 = key
      · rw [if_pos same]
        exact get?_cons_self key value rest
      · rw [if_neg same, get?_cons_of_ne entry.2 (put key value rest) same]
        exact ih

theorem get?_put_of_ne {key other : κ} (value : ν) (entries : List (κ × ν))
    (apart : other ≠ key) : get? other (put key value entries) = get? other entries := by
  induction entries with
  | nil => exact get?_cons_of_ne value [] (Ne.symm apart)
  | cons entry rest ih =>
      unfold put
      by_cases same : entry.1 = key
      · rw [if_pos same, get?_cons_of_ne value rest (Ne.symm apart),
          get?_cons_of_ne entry.2 rest (same ▸ Ne.symm apart)]
      · rw [if_neg same]
        by_cases hit : entry.1 = other
        · subst hit
          rw [get?_cons_self entry.1 entry.2, get?_cons_self entry.1 entry.2]
        · rw [get?_cons_of_ne entry.2 _ hit, get?_cons_of_ne entry.2 _ hit]
          exact ih

/-- Where each key occurs once, every entry is found. -/
theorem get?_of_mem {key : κ} {value : ν} {entries : List (κ × ν)}
    (distinct : (entries.map Prod.fst).Nodup) (member : (key, value) ∈ entries) :
    get? key entries = some value := by
  induction entries with
  | nil => cases member
  | cons entry rest ih =>
      obtain ⟨fresh, tail⟩ := List.nodup_cons.mp distinct
      rcases List.mem_cons.mp member with same | later
      · rw [← same]
        exact get?_cons_self key value rest
      · have apart : entry.1 ≠ key := by
          rintro rfl
          exact fresh (List.mem_map.mpr ⟨_, later, rfl⟩)
        rw [get?_cons_of_ne entry.2 rest apart]
        exact ih tail later

/-- A value that is there already is put in vain. -/
theorem put_of_get? {key : κ} {value : ν} {entries : List (κ × ν)}
    (held : get? key entries = some value) : put key value entries = entries := by
  induction entries with
  | nil => cases held
  | cons entry rest ih =>
      obtain ⟨other, first⟩ := entry
      by_cases same : other = key
      · subst same
        rw [get?_cons_self] at held
        cases held
        simp [put]
      · rw [get?_cons_of_ne first rest same] at held
        simp [put, same, ih held]

theorem get?_map {μ : Type} (key : κ) (f : ν → μ) (entries : List (κ × ν)) :
    get? key (entries.map fun entry => (entry.1, f entry.2)) = (get? key entries).map f := by
  induction entries with
  | nil => rfl
  | cons entry rest ih =>
      obtain ⟨other, first⟩ := entry
      rw [List.map_cons]
      by_cases same : other = key
      · subst same
        rw [get?_cons_self, get?_cons_self, Option.map_some]
      · rw [get?_cons_of_ne (f first) _ same, get?_cons_of_ne first rest same, ih]

theorem put_map {μ : Type} (key : κ) (value : ν) (f : ν → μ) (entries : List (κ × ν)) :
    (put key value entries).map (fun entry => (entry.1, f entry.2)) =
      put key (f value) (entries.map fun entry => (entry.1, f entry.2)) := by
  induction entries with
  | nil => rfl
  | cons entry rest ih =>
      rw [List.map_cons, put, put]
      split
      · rfl
      · rw [List.map_cons, ih]

theorem get?_append (key : κ) (front back : List (κ × ν)) :
    get? key (front ++ back) = (get? key front).or (get? key back) := by
  simp [get?, List.find?_append, Option.map_or]

/-- A key that is new comes last. -/
theorem keys_put (key : κ) (value : ν) (entries : List (κ × ν)) :
    (put key value entries).map Prod.fst =
      if key ∈ entries.map Prod.fst then entries.map Prod.fst
      else entries.map Prod.fst ++ [key] := by
  induction entries with
  | nil => rfl
  | cons entry rest ih =>
      by_cases hit : entry.1 = key
      · simp [put, hit]
      · have apart : key ≠ entry.1 := Ne.symm hit
        simp only [put, hit, ↓reduceIte, List.map_cons, ih, List.mem_cons, apart, false_or]
        split <;> rfl

theorem update_append (entries front back : List (κ × ν)) :
    update entries (front ++ back) = update (update entries front) back := by
  simp only [update, List.foldl_append]

/-- The last value for a key counts. -/
theorem get?_update (key : κ) (entries additions : List (κ × ν)) :
    get? key (update entries additions) = (get? key additions.reverse).or (get? key entries) := by
  induction additions generalizing entries with
  | nil => rfl
  | cons entry rest ih =>
      have step : update entries (entry :: rest) = update (put entry.1 entry.2 entries) rest := rfl
      rw [step, ih, List.reverse_cons, get?_append, Option.or_assoc]
      congr 1
      by_cases hit : key = entry.1
      · subst hit
        rw [get?_put_self, get?_cons_self entry.1 entry.2]
        rfl
      · rw [get?_put_of_ne _ _ hit, get?_cons_of_ne entry.2 [] (Ne.symm hit)]
        rfl

/-- The keys of some additions that the entries lack, in the order of their first occurrence. -/
def newKeys (entries additions : List (κ × ν)) : List κ :=
  ((additions.map Prod.fst).filter fun key => key ∉ entries.map Prod.fst).eraseDups

/-- The keys stay in their places, and new ones follow. -/
theorem keys_update (entries additions : List (κ × ν)) :
    (update entries additions).map Prod.fst =
      entries.map Prod.fst ++ newKeys entries additions := by
  induction additions generalizing entries with
  | nil => simp [update, newKeys]
  | cons entry rest ih =>
      have step : update entries (entry :: rest) = update (put entry.1 entry.2 entries) rest := rfl
      rw [step, ih]
      unfold newKeys
      rw [keys_put, List.map_cons]
      by_cases known : entry.1 ∈ entries.map Prod.fst
      · rw [if_pos known, List.filter_cons_of_neg (by simpa using known)]
      · rw [if_neg known, List.filter_cons_of_pos (by simpa using known), List.eraseDups_cons,
          List.filter_filter, List.append_assoc, List.singleton_append]
        congr 3
        apply List.filter_congr
        intro key _
        simp only [List.mem_append, List.mem_singleton]
        by_cases same : key = entry.1 <;> simp [same]

theorem put_of_new {key : κ} (value : ν) {entries : List (κ × ν)}
    (fresh : key ∉ entries.map Prod.fst) : put key value entries = entries ++ [(key, value)] := by
  induction entries with
  | nil => rfl
  | cons entry rest ih =>
      obtain ⟨apart, others⟩ := not_or.mp (mt List.mem_cons.mpr fresh)
      rw [put, if_neg (Ne.symm apart), ih others, List.cons_append]

theorem mem_put {key : κ} {value : ν} {entries : List (κ × ν)} {entry : κ × ν}
    (member : entry ∈ put key value entries) : entry = (key, value) ∨ entry ∈ entries := by
  induction entries with
  | nil => exact Or.inl (List.mem_singleton.mp member)
  | cons first rest ih =>
      unfold put at member
      split at member
      · exact (List.mem_cons.mp member).imp_right (List.mem_cons_of_mem first)
      · rcases List.mem_cons.mp member with rfl | later
        · exact Or.inr List.mem_cons_self
        · exact (ih later).imp_right (List.mem_cons_of_mem first)

theorem nodup_put {entries : List (κ × ν)} (distinct : (entries.map Prod.fst).Nodup) (key : κ)
    (value : ν) : ((put key value entries).map Prod.fst).Nodup := by
  rw [keys_put]
  by_cases fresh : key ∈ entries.map Prod.fst
  · rw [if_pos fresh]
    exact distinct
  · rw [if_neg fresh]
    refine List.nodup_append.mpr ⟨distinct, List.pairwise_singleton _ key, ?_⟩
    intro other known _ last same
    exact fresh (List.mem_singleton.mp last ▸ same ▸ known)

theorem nodup_update {entries : List (κ × ν)} (distinct : (entries.map Prod.fst).Nodup)
    (additions : List (κ × ν)) : ((update entries additions).map Prod.fst).Nodup := by
  induction additions generalizing entries with
  | nil => exact distinct
  | cons entry rest ih => exact ih (nodup_put distinct entry.1 entry.2)

theorem mem_update {entries additions : List (κ × ν)} {entry : κ × ν}
    (member : entry ∈ update entries additions) : entry ∈ entries ∨ entry ∈ additions := by
  induction additions generalizing entries with
  | nil => exact Or.inl member
  | cons first rest ih =>
      rcases ih member with here | later
      · exact (mem_put here).elim (fun same => Or.inr (same ▸ List.mem_cons_self)) Or.inl
      · exact Or.inr (List.mem_cons_of_mem first later)

/-- Keys that are all new come behind the others, each with its own value. -/
theorem update_of_new {entries additions : List (κ × ν)}
    (distinct : ((entries ++ additions).map Prod.fst).Nodup) :
    update entries additions = entries ++ additions := by
  induction additions generalizing entries with
  | nil => exact (List.append_nil entries).symm
  | cons entry rest ih =>
      have fresh : entry.1 ∉ entries.map Prod.fst := by
        rw [List.map_append, List.nodup_append] at distinct
        exact fun known => distinct.2.2 _ known _ List.mem_cons_self rfl
      rw [List.append_cons] at distinct ⊢
      rw [← ih distinct, ← put_of_new entry.2 fresh]
      rfl

theorem put_put (key : κ) (first second : ν) (entries : List (κ × ν)) :
    put key second (put key first entries) = put key second entries := by
  induction entries with
  | nil => simp [put]
  | cons entry rest ih =>
      by_cases hit : entry.1 = key
      · simp [put, hit]
      · simp [put, hit, ih]

theorem mem_keys_put (key : κ) (value : ν) (entries : List (κ × ν)) :
    key ∈ (put key value entries).map Prod.fst := by
  rw [keys_put]
  split
  · assumption
  · exact List.mem_append_right _ (List.mem_singleton_self key)

/-- A key that has its place already is put there before or after another one. -/
theorem put_comm {key other : κ} (value more : ν) {entries : List (κ × ν)}
    (apart : other ≠ key) (known : key ∈ entries.map Prod.fst) :
    put key value (put other more entries) = put other more (put key value entries) := by
  induction entries with
  | nil => cases known
  | cons entry rest ih =>
      by_cases hit : entry.1 = key
      · simp [put, hit, Ne.symm apart]
      · have later : key ∈ rest.map Prod.fst := by
          simpa [Ne.symm hit] using known
        by_cases same : entry.1 = other
        · simp [put, same, apart]
        · simp [put, hit, same, ih later]

theorem put_update {key : κ} (value : ν) {entries additions : List (κ × ν)}
    (absent : key ∉ additions.map Prod.fst) (known : key ∈ entries.map Prod.fst) :
    put key value (update entries additions) = update (put key value entries) additions := by
  induction additions generalizing entries with
  | nil => rfl
  | cons entry rest ih =>
      obtain ⟨apart, others⟩ := not_or.mp (mt List.mem_cons.mpr absent)
      have kept : key ∈ (put entry.1 entry.2 entries).map Prod.fst := by
        rw [keys_put]
        split
        · exact known
        · exact List.mem_append_left _ known
      calc put key value (update (put entry.1 entry.2 entries) rest)
        _ = update (put key value (put entry.1 entry.2 entries)) rest := ih others kept
        _ = update (put entry.1 entry.2 (put key value entries)) rest := by
            rw [put_comm value entry.2 (Ne.symm apart) known]

theorem update_put {additions : List (κ × ν)} (distinct : (additions.map Prod.fst).Nodup)
    (entries : List (κ × ν)) (key : κ) (value : ν) :
    update entries (put key value additions) = put key value (update entries additions) := by
  induction additions generalizing entries with
  | nil => rfl
  | cons entry rest ih =>
      obtain ⟨fresh, tail⟩ := List.nodup_cons.mp distinct
      by_cases hit : entry.1 = key
      · -- The old value of the key is put in vain, since it gets the new one at its place.
        subst hit
        calc update entries (put entry.1 value (entry :: rest))
          _ = update (put entry.1 value entries) rest := by
              rw [put, if_pos rfl]
              rfl
          _ = update (put entry.1 value (put entry.1 entry.2 entries)) rest := by rw [put_put]
          _ = put entry.1 value (update (put entry.1 entry.2 entries) rest) :=
              (put_update value fresh (mem_keys_put entry.1 entry.2 entries)).symm
      · rw [put, if_neg hit]
        exact ih tail (put entry.1 entry.2 entries)

/-- It makes no difference whether additions are brought together first. -/
theorem update_update {first : List (κ × ν)} (distinct : (first.map Prod.fst).Nodup)
    (entries second : List (κ × ν)) :
    update entries (update first second) = update (update entries first) second := by
  induction second generalizing first with
  | nil => rfl
  | cons entry rest ih =>
      calc update entries (update (put entry.1 entry.2 first) rest)
        _ = update (update entries (put entry.1 entry.2 first)) rest :=
            ih (nodup_put distinct entry.1 entry.2)
        _ = update (put entry.1 entry.2 (update entries first)) rest := by
            rw [update_put distinct]

end ScriptAudit.Association
