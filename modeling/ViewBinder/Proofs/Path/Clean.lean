-- Clean paths. Cleaning a path settles its elements, and settled elements stay as they are; so a
-- clean path is its own shortest form, what is in front of a slash of it is clean as well, and a
-- path behind a directory means the same behind the clean form of that directory.
import ViewBinder.Path
import ViewBinder.Proofs.Attribute.Single
import ViewBinder.Proofs.Markup.Tokens

namespace ViewBinder.Path

/-! ## Elements -/

theorem elements_append (front rest : Text) :
    elements (front ++ slash :: rest) = elements front ++ elements rest := by
  unfold elements
  induction front with
  | nil => simp [Text.splitOn]
  | cons b front ih =>
    rw [List.cons_append, Text.splitOn, Text.splitOn, ih]
    split
    · rfl
    · rcases hfront : Text.splitOn slash front with _ | ⟨piece, pieces⟩
      · exact absurd hfront (Text.splitOn_ne_nil slash front)
      · rfl

theorem join_elements (path : Text) : Text.join "/" (elements path) = path :=
  Text.join_splitOn slash path

theorem slash_notMem_elements {path e : Text} (h : e ∈ elements path) : slash ∉ e :=
  Markup.notMem_of_mem_splitOn h

theorem elements_join {es : List Text} (hne : es ≠ []) (h : ∀ e ∈ es, slash ∉ e) :
    elements (Text.join "/" es) = es := by
  induction es with
  | nil => exact absurd rfl hne
  | cons e rest ih =>
    obtain ⟨he, hrest⟩ := List.forall_mem_cons.mp h
    rcases rest with _ | ⟨e', rest⟩
    · rw [Text.join_one]
      exact Text.splitOn_of_notMem he
    · have hjoin : Text.join "/" (e :: e' :: rest) = e ++ slash :: Text.join "/" (e' :: rest) := by
        unfold Text.join
        rw [List.intercalate_cons_cons, List.append_assoc]
        rfl
      rw [hjoin, elements_append, ih nofun hrest]
      unfold elements
      rw [Text.splitOn_of_notMem he]
      rfl

/-! ## Settled elements -/

/-- Elements as they are kept, innermost first: none is empty or `.`, and `..` has nothing but `..`
in front of it and does not come up in a path that starts at the root. -/
inductive Settled (rooted : Bool) : List Text → Prop
  | nil : Settled rooted []
  | up {kept : List Text} : rooted = false → (∀ e ∈ kept, e = "..") → Settled rooted kept →
      Settled rooted (".." :: kept)
  | down {e : Text} {kept : List Text} : e ≠ [] → e ≠ "." → e ≠ ".." → Settled rooted kept →
      Settled rooted (e :: kept)

variable {rooted : Bool} {kept : List Text}

theorem Settled.tail {e : Text} (h : Settled rooted (e :: kept)) : Settled rooted kept := by
  cases h with
  | up _ _ h => exact h
  | down _ _ _ h => exact h

theorem Settled.ne {e : Text} (h : Settled rooted kept) (he : e ∈ kept) : e ≠ [] ∧ e ≠ "." := by
  induction h with
  | nil => cases he
  | up _ hall _ ih =>
    rcases List.mem_cons.mp he with rfl | he
    · exact ⟨by decide, by decide⟩
    · exact ih he
  | down hempty hdot _ _ ih =>
    rcases List.mem_cons.mp he with rfl | he
    · exact ⟨hempty, hdot⟩
    · exact ih he

theorem Settled.append {inner outer : List Text} (h : Settled rooted (inner ++ outer)) :
    Settled rooted outer := by
  induction inner with
  | nil => exact h
  | cons e inner ih => exact ih h.tail

theorem settle_settled (h : Settled rooted kept) (es : List Text) :
    Settled rooted (settle rooted kept es) := by
  induction es generalizing kept with
  | nil => exact h
  | cons e rest ih =>
    unfold settle
    split
    · exact ih h
    · rename_i hcounts
      rw [Bool.or_eq_true, not_or, List.isEmpty_iff, beq_iff_eq] at hcounts
      split
      · rename_i hup
        rw [beq_iff_eq] at hup
        subst hup
        split
        · split
          · exact ih .nil
          · rename_i hfree
            exact ih (.up (by simpa using hfree) nofun .nil)
        · rename_i last others
          split
          · rename_i hlast
            rw [beq_iff_eq] at hlast
            subst hlast
            cases h with
            | up hfree hall hrest =>
              exact ih (.up hfree (List.forall_mem_cons.mpr ⟨rfl, hall⟩) (.up hfree hall hrest))
            | down _ _ hdown _ => exact absurd rfl hdown
          · exact ih h.tail
      · rename_i hdown
        exact ih (.down hcounts.1 hcounts.2 (by simpa using hdown) h)

theorem mem_settle {e : Text} {es : List Text} (h : e ∈ settle rooted kept es) :
    e ∈ kept ∨ e ∈ es := by
  induction es generalizing kept with
  | nil => exact .inl h
  | cons x rest ih =>
    have hpush : e ∈ x :: kept ∨ e ∈ rest → e ∈ kept ∨ e ∈ x :: rest := by
      simp only [List.mem_cons]
      tauto
    unfold settle at h
    split at h
    · exact hpush ((ih h).imp_left (List.mem_cons_of_mem _))
    · split at h
      · split at h
        · split at h
          · exact hpush ((ih h).imp_left nofun)
          · exact hpush (ih h)
        · split at h
          · exact hpush (ih h)
          · exact hpush ((ih h).imp_left fun hmem =>
              List.mem_cons_of_mem _ (List.mem_cons_of_mem _ hmem))
      · exact hpush (ih h)

theorem settle_cons (kept : List Text) (e : Text) (rest : List Text) :
    settle rooted kept (e :: rest) = settle rooted (settle rooted kept [e]) rest := by
  simp only [settle]
  split
  · rfl
  · split
    · rcases kept with _ | ⟨last, others⟩
      · rfl
      · dsimp only
        split <;> rfl
    · rfl

theorem settle_append (kept xs ys : List Text) :
    settle rooted kept (xs ++ ys) = settle rooted (settle rooted kept xs) ys := by
  induction xs generalizing kept with
  | nil => rfl
  | cons x xs ih => rw [List.cons_append, settle_cons, ih, ← settle_cons]

/-- What is settled is settled once and for all. -/
theorem settle_of_settled {es : List Text} (h : Settled rooted (es.reverse ++ kept)) :
    settle rooted kept es = es.reverse ++ kept := by
  induction es generalizing kept with
  | nil => rfl
  | cons e rest ih =>
    rw [List.reverse_cons, List.append_assoc, List.singleton_append] at h ⊢
    have hhere := h.append
    obtain ⟨hempty, hdot⟩ := hhere.ne List.mem_cons_self
    have hcounts : (e.isEmpty || e == ".") = false := by
      rw [Bool.or_eq_false_iff, List.isEmpty_eq_false_iff, beq_eq_false_iff_ne]
      exact ⟨hempty, hdot⟩
    unfold settle
    rw [hcounts, if_neg Bool.false_ne_true]
    cases hhere with
    | up hfree hall hrest =>
      rw [if_pos (by rfl)]
      rcases kept with _ | ⟨last, others⟩
      · dsimp only
        rw [hfree, if_neg Bool.false_ne_true, ← hfree]
        exact ih h
      · obtain rfl := hall last List.mem_cons_self
        dsimp only
        rw [if_pos (by rfl)]
        exact ih h
    | down _ _ hdown _ =>
      rw [if_neg (by simpa using hdown)]
      exact ih h

/-! ## Clean paths -/

/-- The elements of a path that count, innermost first. -/
def keptOf (path : Text) : List Text := settle (isAbsolute path) [] (elements path)

/-- The path with some elements. -/
def render (rooted : Bool) (kept : List Text) : Text :=
  let text := Text.join "/" kept.reverse
  if rooted then "/" ++ text else if text.isEmpty then "." else text

theorem clean_eq (path : Text) : clean path = render (isAbsolute path) (keptOf path) := rfl

theorem keptOf_settled (path : Text) : Settled (isAbsolute path) (keptOf path) :=
  settle_settled .nil _

theorem slash_notMem_keptOf {path e : Text} (h : e ∈ keptOf path) : slash ∉ e :=
  slash_notMem_elements ((mem_settle h).resolve_left nofun)

theorem join_ne_nil {es : List Text} (hne : es ≠ []) (h : ∀ e ∈ es, e ≠ []) :
    Text.join "/" es ≠ [] := by
  rcases es with _ | ⟨e, rest⟩
  · exact absurd rfl hne
  · rcases rest with _ | ⟨e', rest⟩
    · rw [Text.join_one]
      exact h e List.mem_cons_self
    · intro hnil
      unfold Text.join at hnil
      rw [List.intercalate_cons_cons, List.append_eq_nil_iff, List.append_eq_nil_iff] at hnil
      exact h e List.mem_cons_self hnil.1.1

theorem eq_of_isAbsolute {path : Text} (h : isAbsolute path = true) :
    ∃ rest, path = [] ++ slash :: rest := by
  obtain ⟨rest, hrest⟩ := List.isPrefixOf_iff_prefix.mp h
  exact ⟨rest, hrest.symm⟩

/-- A path that is put together from settled elements has these elements. -/
theorem keptOf_render (h : Settled rooted kept) (hslash : ∀ e ∈ kept, slash ∉ e) :
    isAbsolute (render rooted kept) = rooted ∧ keptOf (render rooted kept) = kept := by
  have hnames : ∀ e ∈ kept.reverse, slash ∉ e := fun e he => hslash e (List.mem_reverse.mp he)
  have hsettle : settle rooted [] kept.reverse = kept := by
    have hsettled : settle rooted [] kept.reverse = kept.reverse.reverse ++ [] :=
      settle_of_settled (by rwa [List.reverse_reverse, List.append_nil])
    rwa [List.reverse_reverse, List.append_nil] at hsettled
  rcases rooted with _ | _
  · rcases hkept : kept.reverse with _ | ⟨e, rest⟩
    · rw [List.reverse_eq_nil_iff] at hkept
      subst hkept
      decide
    · have hne : kept.reverse ≠ [] := by rw [hkept]; exact nofun
      have hempty : ∀ e ∈ kept.reverse, e ≠ [] := fun e he => (h.ne (List.mem_reverse.mp he)).1
      have hrender : render false kept = Text.join "/" kept.reverse := by
        unfold render
        dsimp only
        rw [if_neg Bool.false_ne_true, if_neg (by simpa using join_ne_nil hne hempty)]
      have hfront : isAbsolute (Text.join "/" kept.reverse) = false := by
        by_contra habsolute
        obtain ⟨rest, hrest⟩ := eq_of_isAbsolute (Bool.eq_true_of_not_eq_false habsolute)
        refine hempty [] ?_ rfl
        rw [← elements_join hne hnames, hrest, elements_append]
        exact List.mem_append_left _ (List.mem_singleton_self _)
      rw [hrender]
      refine ⟨hfront, ?_⟩
      unfold keptOf
      rw [hfront, elements_join hne hnames, hsettle]
  · have hrender : render true kept = "/" ++ Text.join "/" kept.reverse := rfl
    have hfront : isAbsolute (render true kept) = true := by
      rw [hrender]
      exact List.isPrefixOf_iff_prefix.mpr (List.prefix_append _ _)
    refine ⟨hfront, ?_⟩
    unfold keptOf
    rw [hfront, hrender]
    show settle true [] (elements ([] ++ slash :: Text.join "/" kept.reverse)) = kept
    rw [elements_append]
    show settle true [] (elements (Text.join "/" kept.reverse)) = kept
    rcases hkept : kept.reverse with _ | ⟨e, rest⟩
    · rw [List.reverse_eq_nil_iff] at hkept
      subst hkept
      decide
    · rw [← hkept, elements_join (by rw [hkept]; exact nofun) hnames, hsettle]

theorem isAbsolute_clean (path : Text) : isAbsolute (clean path) = isAbsolute path :=
  (keptOf_render (keptOf_settled path) fun _ => slash_notMem_keptOf).1

theorem keptOf_clean (path : Text) : keptOf (clean path) = keptOf path :=
  (keptOf_render (keptOf_settled path) fun _ => slash_notMem_keptOf).2

theorem clean_clean (path : Text) : clean (clean path) = clean path := by
  rw [clean_eq (clean path), isAbsolute_clean, keptOf_clean, ← clean_eq]

theorem clean_ne_nil (path : Text) : clean path ≠ [] := by
  rw [clean_eq]
  unfold render
  dsimp only
  split
  · exact nofun
  · split
    · decide
    · rename_i hsome
      simpa using hsome

theorem nil_notMem_map_clean {α : Type} (f : α → Text) (xs : List α) :
    [] ∉ xs.map fun x => clean (f x) := by
  intro hnil
  obtain ⟨x, -, hempty⟩ := List.mem_map.mp hnil
  exact clean_ne_nil (f x) hempty

/-- A path that a tree of files accepts is clean. -/
theorem clean_of_isValid {path : Text} (h : isValid path = true) : clean path = path := by
  unfold isValid at h
  rw [Bool.and_eq_true, Bool.or_eq_true, beq_iff_eq] at h
  rcases h.2 with rfl | hall
  · decide
  · have hplain : ∀ e ∈ elements path, e ≠ [] ∧ e ≠ "." ∧ e ≠ ".." := by
      intro e he
      have hcounts := List.all_eq_true.mp hall e he
      simp only [Bool.and_eq_true, bne_iff_ne, Bool.not_eq_true', List.isEmpty_eq_false_iff]
        at hcounts
      exact ⟨hcounts.1.1, hcounts.1.2, hcounts.2⟩
    have hsettled : ∀ es : List Text, (∀ e ∈ es, e ≠ [] ∧ e ≠ "." ∧ e ≠ "..") →
        Settled false es := by
      intro es hes
      induction es with
      | nil => exact .nil
      | cons e rest ih =>
        obtain ⟨⟨hempty, hdot, hup⟩, hrest⟩ := List.forall_mem_cons.mp hes
        exact .down hempty hdot hup (ih hrest)
    have hpath : path ≠ [] := by
      rintro rfl
      exact (hplain [] (List.mem_singleton_self _)).1 rfl
    have hfront : isAbsolute path = false := by
      by_contra habsolute
      obtain ⟨rest, rfl⟩ := eq_of_isAbsolute (Bool.eq_true_of_not_eq_false habsolute)
      rw [elements_append] at hplain
      exact (hplain [] (List.mem_append_left _ (List.mem_singleton_self _))).1 rfl
    have hkept : keptOf path = (elements path).reverse := by
      have hreverse : Settled false ((elements path).reverse ++ []) := by
        rw [List.append_nil]
        exact hsettled _ fun e he => hplain e (List.mem_reverse.mp he)
      unfold keptOf
      rw [hfront, settle_of_settled hreverse, List.append_nil]
    rw [clean_eq, hfront, hkept]
    unfold render
    dsimp only
    rw [List.reverse_reverse, join_elements, if_neg Bool.false_ne_true,
      if_neg (by simpa using hpath)]

/-! ## Paths behind directories -/

theorem isAbsolute_append {front : Text} (h : front ≠ []) (rest : Text) :
    isAbsolute (front ++ rest) = isAbsolute front := by
  rcases front with _ | ⟨b, front⟩
  · exact absurd rfl h
  · rfl

theorem keptOf_append {front : Text} (h : front ≠ []) (rest : Text) :
    keptOf (front ++ slash :: rest) = settle (isAbsolute front) (keptOf front) (elements rest) := by
  unfold keptOf
  rw [isAbsolute_append h, elements_append, settle_append]

/-- A slash at the end means nothing. -/
theorem clean_slash {front : Text} (h : front ≠ []) :
    clean (front ++ slash :: []) = clean front := by
  rw [clean_eq, keptOf_append h, isAbsolute_append h]
  rfl

/-- A path behind a directory means the same behind the clean form of the directory. -/
theorem clean_behind {front : Text} (h : front ≠ []) (rest : Text) :
    clean (clean front ++ slash :: rest) = clean (front ++ slash :: rest) := by
  rw [clean_eq, clean_eq (front ++ slash :: rest), keptOf_append h,
    keptOf_append (clean_ne_nil front), isAbsolute_append h,
    isAbsolute_append (clean_ne_nil front), isAbsolute_clean, keptOf_clean]

/-- A path that does not start at the root means the same behind the dot. -/
theorem clean_dot {path : Text} (h : isAbsolute path = false) :
    clean ("." ++ slash :: path) = clean path := by
  rw [clean_eq, clean_eq path, keptOf_append (by decide), isAbsolute_append (by decide), h]
  unfold keptOf
  rw [h]
  rfl

theorem join_pair {front rest : Text} (hfront : front ≠ []) (hrest : rest ≠ []) :
    join [front, rest] = clean (front ++ slash :: rest) := by
  have hboth : [front, rest].filter (fun path => !path.isEmpty) = [front, rest] := by
    rw [List.filter_cons_of_pos (by simpa using hfront),
      List.filter_cons_of_pos (by simpa using hrest)]
    rfl
  unfold join
  rw [hboth]
  dsimp only
  unfold Text.join
  rw [List.intercalate_cons_cons, List.intercalate_singleton, List.append_assoc]
  rfl

theorem join_front {front : Text} (h : front ≠ []) (rest : Text) :
    join [front, rest] ≠ [] := by
  unfold join
  rw [List.filter_cons_of_pos (by simpa using h)]
  exact clean_ne_nil _

/-! ## In front of a slash -/

/-- Elements in front of others that are settled are settled. -/
theorem settle_front {front rest : Text} (h : Settled rooted kept) (hslash : ∀ e ∈ kept, slash ∉ e)
    (hjoin : Text.join "/" kept.reverse = front ++ slash :: rest) :
    settle rooted [] (elements front) = (elements front).reverse := by
  have hne : kept.reverse ≠ [] := by
    rintro hnil
    rw [hnil] at hjoin
    exact absurd hjoin.symm (by simp [Text.join])
  have helements : kept.reverse = elements front ++ elements rest := by
    rw [← elements_append, ← hjoin,
      elements_join hne fun e he => hslash e (List.mem_reverse.mp he)]
  have hfront : Settled rooted ((elements front).reverse ++ []) := by
    have hkept : kept = (elements rest).reverse ++ (elements front).reverse := by
      rw [← List.reverse_append, ← helements, List.reverse_reverse]
    rw [hkept] at h
    rw [List.append_nil]
    exact h.append
  rw [settle_of_settled hfront, List.append_nil]

/-- What is in front of a slash of a clean path is clean. -/
theorem clean_front {front rest : Text}
    (hclean : clean (front ++ slash :: rest) = front ++ slash :: rest) (hfront : front ≠ []) :
    clean front = front := by
  have hsettled := keptOf_settled (front ++ slash :: rest)
  have hslash : ∀ e ∈ keptOf (front ++ slash :: rest), slash ∉ e := fun _ => slash_notMem_keptOf
  rw [clean_eq] at hclean
  generalize keptOf (front ++ slash :: rest) = kept at hclean hsettled hslash
  rw [isAbsolute_append hfront] at hclean hsettled
  unfold render at hclean
  dsimp only at hclean
  rcases habsolute : isAbsolute front with _ | _
  · rw [habsolute, if_neg Bool.false_ne_true] at hclean
    split at hclean
    · have hmem : slash ∈ (".": Text) := hclean ▸ List.mem_append_right _ List.mem_cons_self
      exact absurd hmem (by decide)
    · rw [habsolute] at hsettled
      rw [clean_eq, keptOf, habsolute, settle_front hsettled hslash hclean]
      unfold render
      dsimp only
      rw [List.reverse_reverse, join_elements, if_neg Bool.false_ne_true,
        if_neg (by simpa using hfront)]
  · rw [habsolute, if_pos rfl] at hclean
    rw [habsolute] at hsettled
    obtain ⟨front, rfl⟩ := eq_of_isAbsolute habsolute
    have hjoin : Text.join "/" kept.reverse = front ++ slash :: rest := List.cons.inj hclean |>.2
    rw [clean_eq, keptOf, habsolute, elements_append]
    show render true (settle true [] (elements front)) = _
    rw [settle_front hsettled hslash hjoin]
    unfold render
    dsimp only
    rw [List.reverse_reverse, join_elements]
    rfl

theorem lastIndexOf?_append {byte : UInt8} {front last : Text} (h : byte ∉ last) :
    (front ++ byte :: last).lastIndexOf? byte = some front.length := by
  have hindex : ∀ xs ys : Text, byte ∉ xs → (xs ++ byte :: ys).idxOf? byte = some xs.length := by
    intro xs ys hxs
    induction xs with
    | nil => simp [List.idxOf?_cons]
    | cons x xs ih =>
      obtain ⟨hx, hxs⟩ := not_or.mp fun hor => hxs (List.mem_cons.mpr hor)
      rw [List.cons_append, List.idxOf?_cons, if_neg (by simpa using Ne.symm hx), ih hxs]
      rfl
  unfold Text.lastIndexOf?
  rw [List.reverse_append, List.reverse_cons, List.append_assoc, List.singleton_append,
    hindex _ _ fun hmem => h (List.mem_reverse.mp hmem)]
  simp

/-- The directory of a clean path is what is in front of its last slash. -/
theorem directory_of_clean {front last : Text}
    (hclean : clean (front ++ slash :: last) = front ++ slash :: last) (hfront : front ≠ [])
    (hlast : slash ∉ last) : directory (front ++ slash :: last) = front := by
  have hupTo : upTo (front ++ slash :: last) = front ++ slash :: [] := by
    unfold upTo
    rw [lastIndexOf?_append hlast]
    show (front ++ ([slash] ++ last)).take (front.length + 1) = front ++ [slash]
    rw [← List.append_assoc]
    exact List.take_left' (by simp)
  unfold directory
  rw [hupTo, clean_slash hfront, clean_front hclean hfront]

theorem join_snoc {es : List Text} (h : es ≠ []) (e : Text) :
    Text.join "/" (es ++ [e]) = Text.join "/" es ++ slash :: e := by
  induction es with
  | nil => exact absurd rfl h
  | cons first rest ih =>
    rcases rest with _ | ⟨second, rest⟩
    · rw [Text.join_one, List.singleton_append]
      unfold Text.join
      rw [List.intercalate_cons_cons, List.intercalate_singleton, List.append_assoc]
      rfl
    · have hrest := ih (List.cons_ne_nil _ _)
      unfold Text.join at hrest ⊢
      rw [List.cons_append, List.cons_append, List.intercalate_cons_cons,
        ← List.cons_append, hrest, List.intercalate_cons_cons, List.append_assoc, List.append_assoc,
        List.append_assoc]

theorem render_cons (hne : kept ≠ []) (hempty : ∀ e ∈ kept, e ≠ []) (last : Text) :
    render rooted (last :: kept) = render rooted kept ++ slash :: last := by
  have hreverse : kept.reverse ≠ [] := by simpa using hne
  have hjoin : Text.join "/" kept.reverse ≠ [] :=
    join_ne_nil hreverse fun e he => hempty e (List.mem_reverse.mp he)
  unfold render
  dsimp only
  rw [List.reverse_cons, join_snoc hreverse]
  rcases rooted with _ | _
  · rw [if_neg Bool.false_ne_true, if_neg Bool.false_ne_true, if_neg (by simp),
      if_neg (by simpa using hjoin)]
  · rw [if_pos rfl, if_pos rfl, List.append_assoc]

theorem directory_of_last {last : Text} (hlast : slash ∉ last) : directory last = "." := by
  have hnone : last.lastIndexOf? slash = none := by
    have hindex : last.reverse.idxOf? slash = none := by
      rw [List.idxOf?_eq_none_iff]
      exact fun hmem => hlast (List.mem_reverse.mp hmem)
    unfold Text.lastIndexOf?
    rw [hindex]
  unfold directory upTo
  rw [hnone]
  show clean [] = "."
  decide

/-- A name in a directory is in that directory. -/
theorem directory_join {root name : Text} (hroot : root ≠ []) (hname : name ≠ [])
    (hdot : name ≠ ".") (hup : name ≠ "..") (hslash : slash ∉ name) :
    directory (join [root, name]) = clean root := by
  have hkept : keptOf (root ++ slash :: name) = name :: keptOf root := by
    rw [keptOf_append hroot, elements, Text.splitOn_of_notMem hslash]
    unfold settle
    rw [if_neg (by simp [hname, hdot]), if_neg (by simpa using hup)]
    rfl
  have hclean := clean_clean (root ++ slash :: name)
  have hempty : ∀ e ∈ keptOf root, e ≠ [] := fun e he => ((keptOf_settled root).ne he).1
  have hjoined : clean (root ++ slash :: name) =
      render (isAbsolute root) (name :: keptOf root) := by
    rw [clean_eq, hkept, isAbsolute_append hroot]
  rw [join_pair hroot hname]
  by_cases hsome : keptOf root = []
  · rw [hjoined, clean_eq root, hsome]
    rcases isAbsolute root with _ | _
    · have hlone : render false [name] = name := by
        unfold render
        dsimp only
        rw [List.reverse_singleton, Text.join_one, if_neg Bool.false_ne_true,
          if_neg (by simpa using hname)]
      rw [hlone, directory_of_last hslash]
      rfl
    · have hlone : render true [name] = [] ++ slash :: name := by
        unfold render
        dsimp only
        rw [List.reverse_singleton, Text.join_one, if_pos rfl]
        rfl
      rw [hlone]
      unfold directory upTo
      rw [lastIndexOf?_append hslash]
      show clean [slash] = "/"
      decide
  · rw [render_cons hsome hempty, ← clean_eq] at hjoined
    rw [hjoined] at hclean ⊢
    exact directory_of_clean hclean (clean_ne_nil root) hslash

/-- Whatever directory a clean path is in, its own directory is that one or in it. -/
theorem directory_below {path outer : Text} (hclean : clean path = path) (houter : outer ≠ [])
    (h : Text.startsWith path (outer ++ "/") = true) :
    directory path = outer ∨ Text.startsWith (directory path) (outer ++ "/") = true := by
  obtain ⟨rest, hrest⟩ := List.isPrefixOf_iff_prefix.mp h
  -- the path up to its last slash
  have hmem : slash ∈ path.reverse := by
    rw [List.mem_reverse, ← hrest]
    exact List.mem_append_left _ (List.mem_append_right _ (List.mem_singleton_self _))
  obtain ⟨last, front, hsplit, hlast⟩ := List.eq_append_cons_of_mem hmem
  obtain rfl : path = front.reverse ++ slash :: last.reverse := by
    rw [← List.reverse_reverse path, hsplit]
    simp
  generalize front.reverse = front at hclean hrest ⊢
  replace hlast : slash ∉ last.reverse := fun hin => hlast (List.mem_reverse.mp hin)
  generalize last.reverse = last at hclean hrest hlast ⊢
  rcases List.append_eq_append_iff.mp hrest with ⟨behind, hfront, -⟩ | ⟨behind, houter', hbehind⟩
  · have hfront' : front ≠ [] := by rw [hfront]; simp [houter]
    rw [directory_of_clean hclean hfront' hlast]
    exact .inr (List.isPrefixOf_iff_prefix.mpr ⟨behind, hfront.symm⟩)
  · rcases behind with _ | ⟨b, behind⟩
    · have hfront' : front ≠ [] := by rw [← List.append_nil front, ← houter']; simp [houter]
      rw [directory_of_clean hclean hfront' hlast, ← List.append_nil front, ← houter']
      exact .inr (List.isPrefixOf_iff_prefix.mpr (List.prefix_refl _))
    · obtain ⟨rfl, hlast'⟩ := List.cons.inj hbehind
      rcases List.eq_nil_or_concat behind with rfl | ⟨inner, b, rfl⟩
      · have hsame : outer = front := List.append_inj_left' houter' rfl
        rw [← hsame]
        rw [← hsame] at hclean
        exact .inl (directory_of_clean hclean houter hlast)
      · -- the slash would stand behind the last one
        have hends : outer ++ [slash] = (front ++ slash :: inner) ++ [b] := by
          rw [List.concat_eq_append] at houter'
          rw [List.append_assoc, List.cons_append]
          exact houter'
        have hb : [slash] = [b] := List.append_inj_right' hends rfl
        refine absurd ?_ hlast
        rw [hlast', ← List.singleton_inj.mp hb]
        simp

/-! ## The last element -/

/-- What stands behind the last slash of a path is its last element. -/
theorem base_behind {front last : Text} (hfront : front = [] ∨ ∃ outer, front = outer ++ [slash])
    (hlast : slash ∉ last) (hne : last ≠ []) : base (front ++ last) = last := by
  have hempty : (front ++ last).isEmpty = false := by simp [hne]
  have hend : ∀ b ∈ (front ++ last).reverse.head?, (b == slash) = false := by
    intro b hb
    rw [List.head?_reverse, List.getLast?_append_of_ne_nil _ hne] at hb
    rw [beq_eq_false_iff_ne]
    exact fun heq => hlast (heq ▸ List.mem_of_getLast? hb)
  have htrim : trimEnd (front ++ last) = front ++ last := by
    unfold trimEnd
    rw [dropWhile_eq_self hend, List.reverse_reverse]
  have hone : elements last = [last] := Text.splitOn_of_notMem hlast
  have helements : (elements (front ++ last)).getLastD [] = last := by
    rcases hfront with rfl | ⟨outer, rfl⟩
    · rw [List.nil_append, hone]
      rfl
    · rw [List.append_assoc, List.singleton_append, elements_append, hone]
      simp
  unfold base
  rw [hempty, if_neg Bool.false_ne_true]
  dsimp only
  rw [htrim, hempty, if_neg Bool.false_ne_true, helements]

end ViewBinder.Path
