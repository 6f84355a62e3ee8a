import DailyReport.Lib.Text

/-!
# Paths as texts

The path grammar of a host, as far as stripping a base directory off a path needs it: an optional
drive or share, a root, and components between separators, where repeated separators and
current-directory components do not count.

* `stripPrefix_join` : **stripping a base off a path below it gives back what was joined**, unless
  the grammar reads another share into the longer path.
-/

namespace Lib

/-- The path grammar of a host. -/
inductive Platform
  | windows
  | unix
  deriving DecidableEq, Repr

/-- The separator the host writes. -/
def Platform.separator : Platform → Char
  | .windows => '\\'
  | .unix => '/'

/-- The separators the host reads. -/
def Platform.isSeparator : Platform → Char → Bool
  | .windows, c => c == '\\' || c == '/'
  | .unix, c => c == '/'

theorem Platform.isSeparator_separator (p : Platform) : p.isSeparator p.separator = true := by
  cases p <;> rfl

section Components

variable (isSep : Char → Bool)

/-- Skip the separators and the current-directory components at the front. -/
def skipEmpty : Text → Text
  | [] => []
  | c :: t =>
    if isSep c then skipEmpty t
    else if c = '.' ∧ t.head?.all isSep then skipEmpty t
    else c :: t

/-- Skip the separators and the current-directory components at both ends. -/
def trimBody (t : Text) : Text := (skipEmpty isSep (skipEmpty isSep t).reverse).reverse

/-- A component that counts. -/
def properComponent (c : Text) : Bool := decide (c ≠ [] ∧ c ≠ ['.'])

/-- The components of a path body. -/
def components (t : Text) : List Text := (t.splitOnP isSep).filter properComponent

/-- Strip components off the front of a path body. -/
def stripComponents : List Text → Text → Option Text
  | [], t => some (trimBody isSep t)
  | c :: cs, t =>
    if (skipEmpty isSep t).takeWhile (fun a => !isSep a) = c then
      stripComponents cs ((skipEmpty isSep t).dropWhile fun a => !isSep a)
    else none

/-- A name of a directory entry. -/
structure IsName (name : Text) : Prop where
  proper : properComponent name = true
  noSep : ∀ c ∈ name, isSep c = false

variable {isSep}

theorem skipEmpty_cons_separator {s : Char} (hs : isSep s = true) (t : Text) :
    skipEmpty isSep (s :: t) = skipEmpty isSep t := by
  rw [skipEmpty, if_pos hs]

/-- A component that does not count is skipped together with the separator behind it. -/
theorem skipEmpty_improper {c : Text} {s : Char} (hs : isSep s = true)
    (hc : properComponent c = false) (t : Text) :
    skipEmpty isSep (c ++ s :: t) = skipEmpty isSep t := by
  simp only [properComponent, decide_eq_false_iff_not, not_and, not_not] at hc
  by_cases hnil : c = []
  · rw [hnil, List.nil_append, skipEmpty_cons_separator hs]
  · rw [hc hnil, List.singleton_append, skipEmpty]
    split_ifs with hdot hskip
    · exact skipEmpty_cons_separator hs t
    · exact skipEmpty_cons_separator hs t
    · exact absurd ⟨rfl, by simpa using hs⟩ hskip

/-- Nothing is skipped in front of a name. -/
theorem IsName.skipEmpty_eq {name : Text} (h : IsName isSep name) (t : Text) :
    skipEmpty isSep (name ++ t) = name ++ t := by
  obtain ⟨hproper, hsep⟩ := h
  cases name with
  | nil => cases hproper
  | cons c name =>
    rw [List.cons_append, skipEmpty, if_neg (by simp [hsep c]), if_neg]
    rintro ⟨rfl, hhead⟩
    cases name with
    | nil => cases hproper
    | cons d name =>
      have := hsep d (by simp)
      simp [this] at hhead

theorem IsName.reverse {name : Text} (h : IsName isSep name) : IsName isSep name.reverse where
  proper := by
    have := h.proper
    simp only [properComponent, ne_eq, decide_eq_true_eq] at this ⊢
    refine ⟨by simpa using this.1, fun hrev => this.2 ?_⟩
    rw [← List.reverse_reverse name, hrev]
    rfl
  noSep := fun c hc => h.noSep c (List.mem_reverse.1 hc)

/-- Stripping looks at a body behind its leading separators only. -/
theorem stripComponents_congr {t t' : Text} (h : skipEmpty isSep t = skipEmpty isSep t')
    (cs : List Text) : stripComponents isSep cs t = stripComponents isSep cs t' := by
  cases cs with
  | nil => simp only [stripComponents, trimBody, h]
  | cons c cs => simp only [stripComponents, h]

theorem stripComponents_name {name : Text} (h : IsName isSep name) {s : Char}
    (hs : isSep s = true) (cs : List Text) (t : Text) :
    stripComponents isSep (name :: cs) (name ++ s :: t) = stripComponents isSep cs t := by
  have hskip := h.skipEmpty_eq (s :: t)
  have hname : ∀ a ∈ name, (!isSep a) = true := fun a ha => by simp [h.noSep a ha]
  have htake : (name ++ s :: t).takeWhile (fun a => !isSep a) = name := by
    rw [List.takeWhile_append_of_pos hname, List.takeWhile_cons_of_neg (by simp [hs]),
      List.append_nil]
  have hdrop : (name ++ s :: t).dropWhile (fun a => !isSep a) = s :: t := by
    rw [List.dropWhile_append_of_pos hname, List.dropWhile_cons_of_neg (by simp [hs])]
  rw [stripComponents, hskip, if_pos htake, hdrop]
  exact stripComponents_congr (skipEmpty_cons_separator hs t) cs

theorem components_append_cons (a b : Text) {s : Char} (hs : isSep s = true) :
    components isSep (a ++ s :: b) = components isSep a ++ components isSep b := by
  rw [components, List.splitOnP_append_cons a b hs, List.filter_append]
  rfl

theorem components_of_noSep {a : Text} (h : ∀ c ∈ a, isSep c = false) :
    components isSep a = if properComponent a then [a] else [] := by
  rw [components, List.splitOnP_eq_singleton h]
  cases hproper : properComponent a <;> simp [hproper]

/-- Stripping the components of one directory name, with the separator behind it. -/
theorem stripComponents_segment {a : Text} (h : ∀ c ∈ a, isSep c = false) {s : Char}
    (hs : isSep s = true) (cs : List Text) (t : Text) :
    stripComponents isSep (components isSep a ++ cs) (a ++ s :: t) =
      stripComponents isSep cs t := by
  rw [components_of_noSep h]
  cases hproper : properComponent a with
  | true => exact stripComponents_name ⟨hproper, h⟩ hs cs t
  | false => exact stripComponents_congr (skipEmpty_improper hs hproper t) cs

/-- **Stripping the components of a directory** leaves what is below it. -/
theorem stripComponents_append {s : Char} (hs : isSep s = true) (base below : Text) :
    stripComponents isSep (components isSep base) (base ++ s :: below) =
      some (trimBody isSep below) := by
  induction hn : base.length using Nat.strong_induction_on generalizing base with
  | _ n ih =>
    -- the first name of the base, and what stands behind it
    have hsplit := List.takeWhile_append_dropWhile (p := fun a => !isSep a) (l := base)
    have hname : ∀ c ∈ base.takeWhile (fun a => !isSep a), isSep c = false := fun c hc => by
      simpa using List.mem_takeWhile_imp hc
    cases hrest : base.dropWhile (fun a => !isSep a) with
    | nil =>
      rw [hrest, List.append_nil] at hsplit
      rw [hsplit] at hname
      have := stripComponents_segment hname hs [] below
      rw [List.append_nil] at this
      rw [this, stripComponents]
    | cons s' rest =>
      have hs' : isSep s' = true := by
        have := List.head?_dropWhile_not (fun a => !isSep a) base
        rw [hrest] at this
        simpa using this
      rw [hrest] at hsplit
      have hlen : rest.length < n := by
        rw [← hn, ← hsplit, List.length_append, List.length_cons]
        omega
      rw [← hsplit, components_append_cons _ _ hs', List.append_assoc, List.cons_append,
        stripComponents_segment hname hs']
      exact ih _ hlen rest rfl

/-- The text below a directory, as its names. -/
theorem trimBody_joinWith (s : Char) {names : List Text}
    (h : ∀ name ∈ names, IsName isSep name) :
    trimBody isSep (joinWith [s] names) = joinWith [s] names := by
  have hfront : skipEmpty isSep (joinWith [s] names) = joinWith [s] names := by
    cases names with
    | nil => rfl
    | cons name names =>
      by_cases hnil : names = []
      · have := (h name (by simp)).skipEmpty_eq []
        simpa [hnil] using this
      · rw [joinWith_cons _ _ hnil, List.append_assoc]
        exact (h name (by simp)).skipEmpty_eq _
  have hback : skipEmpty isSep (joinWith [s] names).reverse = (joinWith [s] names).reverse := by
    rcases List.eq_nil_or_concat names with rfl | ⟨front, name, rfl⟩
    · rfl
    · have hname := (h name (by simp)).reverse
      by_cases hnil : front = []
      · have := hname.skipEmpty_eq []
        simpa [hnil] using this
      · rw [List.concat_eq_append, joinWith_concat _ _ hnil, List.reverse_append,
          List.reverse_append]
        exact hname.skipEmpty_eq _
  rw [trimBody, hfront, hback, List.reverse_reverse]

end Components

/-! ### Stripping a base off a path -/

/-- A drive or a share in front of a path. -/
inductive PathPrefix
  | disk (letter : Char)
  | share (server name : Text)
  deriving DecidableEq

/-- Split the drive or the share off a path. -/
def splitPrefix : Platform → Text → Option PathPrefix × Text
  | .windows, a :: b :: t =>
    if a.isAlpha && b == ':' then (some (.disk a.toUpper), t)
    else if Platform.windows.isSeparator a && Platform.windows.isSeparator b then
      let noSep := fun c => !Platform.windows.isSeparator c
      let after := (t.dropWhile noSep).drop 1
      if t.takeWhile noSep = [] ∨ after.takeWhile noSep = [] then (none, a :: b :: t)
      else (some (.share (t.takeWhile noSep) (after.takeWhile noSep)), after.dropWhile noSep)
    else (none, a :: b :: t)
  | _, t => (none, t)

/-- The path is rooted: a share always is. -/
def isRooted (p : Platform) (split : Option PathPrefix × Text) : Bool :=
  match split with
  | (some (.share _ _), _) => true
  | (_, rest) => rest.head?.any p.isSeparator

/-- The path below a base directory, unless the base is not in front of the path. -/
def stripPrefix (p : Platform) (path base : Text) : Option Text :=
  if (splitPrefix p path).1 = (splitPrefix p base).1 ∧
      isRooted p (splitPrefix p path) = isRooted p (splitPrefix p base) then
    stripComponents p.isSeparator (components p.isSeparator (splitPrefix p base).2)
      (splitPrefix p path).2
  else none

/-- A directory with a separator at its end. -/
def directoryPrefix (p : Platform) (base : Text) : Text :=
  if base.getLast?.any p.isSeparator then base else base ++ [p.separator]

variable {p : Platform}

theorem splitPrefix_none {t : Text} (h : (splitPrefix p t).1 = none) :
    (splitPrefix p t).2 = t := by
  unfold splitPrefix at h ⊢
  split at h
  · simp only at h ⊢
    split_ifs at h ⊢ <;> rfl
  · rfl

/-- Taking a name off a text does not look behind its separator. -/
theorem takeWhile_append_of_dropWhile {q : Char → Bool} {t : Text} (x : Text)
    (h : t.dropWhile q ≠ [] ∨ x.head?.all (fun c => !q c) = true) :
    (t ++ x).takeWhile q = t.takeWhile q ∧ (t ++ x).dropWhile q = t.dropWhile q ++ x := by
  induction t with
  | nil =>
    cases x with
    | nil => simp
    | cons c x =>
      have : q c = false := by simpa using h
      simp [this]
  | cons c t ih =>
    cases hc : q c with
    | false => simp [hc]
    | true =>
      obtain ⟨htake, hdrop⟩ := ih (by simpa [hc] using h)
      simp [hc, htake, hdrop]

/-- Text behind a path leaves its drive or share alone, once that is complete. -/
theorem splitPrefix_append {t x : Text} {pre : PathPrefix}
    (h : (splitPrefix p t).1 = some pre)
    (hx : (splitPrefix p t).2 ≠ [] ∨ x.head?.all p.isSeparator = true) :
    splitPrefix p (t ++ x) = (some pre, (splitPrefix p t).2 ++ x) := by
  cases p with
  | unix => simp [splitPrefix] at h
  | windows =>
    match t, h, hx with
    | a :: b :: t, h, hx =>
      simp only [splitPrefix, List.cons_append] at h hx ⊢
      by_cases hdisk : (a.isAlpha && b == ':') = true
      · simp only [if_pos hdisk, Option.some.injEq] at h ⊢
        rw [h]
      · by_cases hseps : (Platform.windows.isSeparator a && Platform.windows.isSeparator b) = true
        · simp only [if_neg hdisk, if_pos hseps] at h hx ⊢
          by_cases hshare : t.takeWhile (fun c => !Platform.windows.isSeparator c) = [] ∨
              ((t.dropWhile fun c => !Platform.windows.isSeparator c).drop 1).takeWhile
                (fun c => !Platform.windows.isSeparator c) = []
          · rw [if_pos hshare] at h
            cases h
          · simp only [if_neg hshare, Option.some.injEq] at h hx
            -- a complete share: its server and its name both end before the new text
            obtain ⟨c, rest, hrest⟩ : ∃ c rest,
                (t.dropWhile fun c => !Platform.windows.isSeparator c) = c :: rest := by
              refine List.exists_cons_of_ne_nil fun hnil => hshare (Or.inr ?_)
              rw [hnil]
              rfl
            obtain ⟨hserver, hafter⟩ := takeWhile_append_of_dropWhile x
              (q := fun c => !Platform.windows.isSeparator c) (t := t) (Or.inl (by simp [hrest]))
            rw [hrest, List.drop_one, List.tail_cons] at h hx hshare
            obtain ⟨hname, hbody⟩ := takeWhile_append_of_dropWhile x
              (q := fun c => !Platform.windows.isSeparator c) (t := rest)
              (hx.imp_right fun h => by simpa using h)
            rw [hserver, hafter, hrest, List.cons_append]
            simp only [List.drop_one, List.tail_cons, hname, hbody, if_neg hshare, h]
        · rw [if_neg hdisk, if_neg hseps] at h
          cases h

theorem splitPrefix_suffix (t : Text) : (splitPrefix p t).2 <:+ t := by
  unfold splitPrefix
  split
  · simp only
    split_ifs
    · exact (List.suffix_cons _ _).trans (List.suffix_cons _ _)
    · exact List.suffix_rfl
    · refine (List.dropWhile_suffix _).trans ((List.drop_suffix _ _).trans
        ((List.dropWhile_suffix _).trans ?_))
      exact (List.suffix_cons _ _).trans (List.suffix_cons _ _)
    · exact List.suffix_rfl
  · exact List.suffix_rfl

/-- A base that ends in a separator has a body. -/
theorem splitPrefix_body_ne_nil {t : Text} (h : t.getLast?.any p.isSeparator = true) :
    (splitPrefix p t).2 ≠ [] := by
  have hne : t ≠ [] := by rintro rfl; cases h
  unfold splitPrefix
  split
  next a b t =>
    simp only
    split_ifs with hdisk hseps hnone
    · rintro rfl
      simp only [Bool.and_eq_true, beq_iff_eq] at hdisk
      simp [hdisk.2, Platform.isSeparator] at h
    · simp
    · intro hnil
      -- otherwise the share's name would end the base
      set rest := (t.dropWhile fun c => !Platform.windows.isSeparator c).drop 1
      change rest.dropWhile (fun c => !Platform.windows.isSeparator c) = [] at hnil
      have hrest : rest.takeWhile (fun c => !Platform.windows.isSeparator c) = rest := by
        have := List.takeWhile_append_dropWhile (p := fun c => !Platform.windows.isSeparator c)
          (l := rest)
        rwa [hnil, List.append_nil] at this
      have hname : rest ≠ [] := by
        rw [← hrest]
        exact fun h => hnone (Or.inr h)
      have hsuffix : rest <:+ a :: b :: t := by
        refine (List.drop_suffix _ _).trans ((List.dropWhile_suffix _).trans ?_)
        exact (List.suffix_cons _ _).trans (List.suffix_cons _ _)
      obtain ⟨front, last, hlast⟩ := (List.eq_nil_or_concat _).resolve_left hname
      have hmem : last ∈ rest.takeWhile fun c => !Platform.windows.isSeparator c := by
        rw [hrest, hlast]
        simp
      obtain ⟨pre, hpre⟩ := hsuffix
      rw [← hpre, hlast] at h
      have := List.mem_takeWhile_imp hmem
      simp_all
    · simp
  next => exact hne

/-- The body of a path below a base is that of the base with the rest behind it. -/
theorem splitPrefix_append_snd {t x : Text}
    (h : (splitPrefix p (t ++ x)).1 = (splitPrefix p t).1)
    (hx : (splitPrefix p t).2 ≠ [] ∨ x.head?.all p.isSeparator = true) :
    (splitPrefix p (t ++ x)).2 = (splitPrefix p t).2 ++ x := by
  cases hpre : (splitPrefix p t).1 with
  | none =>
    rw [splitPrefix_none hpre, splitPrefix_none (h.trans hpre)]
  | some pre =>
    rw [splitPrefix_append hpre hx]

/-- Stripping works on the bodies once the prefixes agree. -/
theorem stripPrefix_eq {path base x : Text}
    (h : (splitPrefix p path).1 = (splitPrefix p base).1 →
      stripComponents p.isSeparator (components p.isSeparator (splitPrefix p base).2)
        (splitPrefix p path).2 = some x) :
    stripPrefix p path base = none ∨ stripPrefix p path base = some x := by
  unfold stripPrefix
  split_ifs with hsame
  · exact Or.inr (h hsame.1)
  · exact Or.inl rfl

/-- **Stripping a base off a path below it** gives back what was joined, unless the grammar reads
another share into the longer path. -/
theorem stripPrefix_join (base : Text) {names : List Text}
    (h : ∀ name ∈ names, IsName p.isSeparator name) :
    stripPrefix p (directoryPrefix p base ++ joinWith [p.separator] names) base = none ∨
      stripPrefix p (directoryPrefix p base ++ joinWith [p.separator] names) base =
        some (joinWith [p.separator] names) := by
  have htrim := trimBody_joinWith p.separator h
  refine stripPrefix_eq fun hsame => ?_
  unfold directoryPrefix at hsame ⊢
  by_cases hend : base.getLast?.any p.isSeparator = true
  · rw [if_pos hend] at hsame ⊢
    have hbody := splitPrefix_body_ne_nil hend
    obtain ⟨front, s, hfront⟩ := (List.eq_nil_or_concat _).resolve_left hbody
    have hs : p.isSeparator s = true := by
      obtain ⟨t, ht⟩ : (splitPrefix p base).2 <:+ base := splitPrefix_suffix base
      rw [← ht, hfront] at hend
      simpa using hend
    rw [splitPrefix_append_snd hsame (Or.inl hbody), hfront, List.concat_eq_append,
      List.append_assoc, List.singleton_append, components_append_cons _ _ hs]
    have hempty : components p.isSeparator [] = [] := rfl
    rw [hempty, List.append_nil, stripComponents_append hs, htrim]
  · rw [if_neg hend, List.append_assoc] at hsame ⊢
    rw [splitPrefix_append_snd hsame (Or.inr (by simp [p.isSeparator_separator])),
      List.singleton_append, stripComponents_append p.isSeparator_separator, htrim]

end Lib
