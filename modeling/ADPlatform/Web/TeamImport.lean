import ADPlatform.Web.TeamCsv

/-! # Teams read back from comma-separated values

`parseTeamCsv` cuts a text into trimmed lines, reads a header and groups the rows by a key that
joins the name and the contact of a team. `parseTeamCsv_toCsv` says that it reads back what `toCsv`
wrote, where no two teams have one key. -/

namespace ADPlatform.Web
open JSString

/-- `TeamCsvPlayer`. -/
structure TeamCsvPlayer where
  displayName : JSString
  email : JSString
  password : JSString
  role : JSString
  deriving DecidableEq

/-- `TeamCsvRow`. -/
structure TeamCsvRow where
  name : JSString
  contactEmail : JSString
  players : List TeamCsvPlayer
  deriving DecidableEq

/-- The loop of `splitCsvLine`, with the cell so far. -/
def splitCells : JSString → Bool → JSString → List JSString
  | current, _, [] => [trim current]
  | current, inQuotes, c :: rest =>
    if c = quote then
      match inQuotes, rest with
      | true, d :: rest' =>
        if d = quote then splitCells (current ++ [quote]) true rest'
        else splitCells current false (d :: rest')
      | _, rest => splitCells current (!inQuotes) rest
    else if c = comma && !inQuotes then trim current :: splitCells [] inQuotes rest
    else splitCells (current ++ [c]) inQuotes rest

/-- `splitCsvLine`. -/
def splitCsvLine (line : JSString) : List JSString := splitCells [] false line

/-- `text.split(/\r?\n/)`. -/
def splitLines (text : JSString) : List JSString :=
  let lines := text.splitOn 10
  (lines.dropLast.map fun line => if line.getLast? = some 13 then line.dropLast else line) ++
    lines.getLast?.toList

section
variable (lower : JSString → JSString)

/-- The key of a team, with `lower` for `toLowerCase`. -/
def teamKey (name contactEmail : JSString) : JSString :=
  lower (trim name) ++ ascii "|" ++ lower (trim contactEmail)

/-- The map from keys to teams, in the order of insertion. -/
abbrev TeamMap := List (JSString × TeamCsvRow)

/-- A key that is there already keeps its team. -/
def TeamMap.insertNew (teams : TeamMap) (key : JSString) (team : TeamCsvRow) : TeamMap :=
  if teams.any (·.1 = key) then teams else teams ++ [(key, team)]

/-- The player goes to the team of the key. -/
def TeamMap.pushPlayer (teams : TeamMap) (key : JSString) (player : TeamCsvPlayer) : TeamMap :=
  teams.map fun entry =>
    if entry.1 = key then
      (entry.1, { entry.2 with players := entry.2.players ++ [player] }) else entry

/-- The cell of a column, by the header if there is one. -/
def column (header : Option (List JSString)) (cells : List JSString) (name : String)
    (position : Nat)
    (absent : JSString) : JSString :=
  match header with
  | some header => ((header.idxOf? (ascii name)).bind fun index => cells[index]?).getD absent
  | none => cells[position]?.getD absent

/-- One row of the loop of `parseTeamCsv`. -/
def parseRow (header : Option (List JSString)) (teams : TeamMap) (line : JSString) : TeamMap :=
  let cells := splitCsvLine line
  let teamName := column header cells "team_name" 0 []
  let contactEmail := column header cells "contact_email" 1 []
  if trim teamName = [] || trim contactEmail = [] then teams
  else
    let key := teamKey lower teamName contactEmail
    let teams := teams.insertNew key
      { name := trim teamName, contactEmail := trim contactEmail, players := [] }
    let displayName := column header cells "player_display_name" 2 []
    let email := column header cells "player_email" 3 []
    let password := column header cells "player_password" 4 []
    let role := column header cells "player_role" 5 (ascii "member")
    if trim displayName = [] || trim email = [] || trim password = [] then teams
    else teams.pushPlayer key
      { displayName := trim displayName, email := trim email, password := trim password
        role := if trim role = [] then ascii "member" else trim role }

/-- `parseTeamCsv`: one team for each key, in the order of their first lines. -/
def parseTeamCsv (text : JSString) : List TeamCsvRow :=
  match ((splitLines text).map trim).filter (· ≠ []) with
  | [] => []
  | first :: lines =>
    let header := (splitCsvLine first).map lower
    let hasHeader := ascii "team_name" ∈ header || ascii "contact_email" ∈ header
    let rows := if hasHeader then lines else first :: lines
    (rows.foldl (parseRow lower (if hasHeader then some header else none)) []).map (·.2)

end

/-! ## The rows of an export -/

/-- The header of the template. -/
def teamCsvHeader : List JSString :=
  ["team_name", "contact_email", "player_display_name", "player_email", "player_password",
    "player_role"].map ascii

/-- One row for each player, or one without a player. -/
def teamRows (team : TeamCsvRow) : List (List JSString) :=
  if team.players = [] then [[team.name, team.contactEmail, [], [], [], []]]
  else team.players.map fun player =>
    [team.name, team.contactEmail, player.displayName, player.email, player.password, player.role]

/-- A cell that neither the writing nor the reading changes. -/
structure CleanCell (cell : JSString) : Prop where
  trimmed : trim cell = cell
  noLineFeed : 10 ∉ cell
  noReturn : 13 ∉ cell
  neutral : neutralizeFormula cell = cell

/-- The cells of the player are clean, and none is blank. -/
structure CleanPlayer (player : TeamCsvPlayer) : Prop where
  cells : ∀ cell ∈ [player.displayName, player.email, player.password, player.role],
    CleanCell cell ∧ trim cell ≠ []

/-- The cells of the team and its players are clean. -/
structure CleanTeam (team : TeamCsvRow) : Prop where
  name : CleanCell team.name
  contactEmail : CleanCell team.contactEmail
  players : ∀ player ∈ team.players, CleanPlayer player

instance : DecidablePred CleanCell := fun cell =>
  decidable_of_iff (trim cell = cell ∧ 10 ∉ cell ∧ 13 ∉ cell ∧ neutralizeFormula cell = cell)
    ⟨fun h => ⟨h.1, h.2.1, h.2.2.1, h.2.2.2⟩, fun h =>
      ⟨h.trimmed, h.noLineFeed, h.noReturn, h.neutral⟩⟩

instance : DecidablePred CleanPlayer := fun player =>
  decidable_of_iff (∀ cell ∈ [player.displayName, player.email, player.password, player.role],
    CleanCell cell ∧ trim cell ≠ []) ⟨fun h => ⟨h⟩, fun h => h.cells⟩

instance : DecidablePred CleanTeam := fun team =>
  decidable_of_iff (CleanCell team.name ∧ CleanCell team.contactEmail ∧
    ∀ player ∈ team.players, CleanPlayer player)
    ⟨fun h => ⟨h.1, h.2.1, h.2.2⟩, fun h => ⟨h.name, h.contactEmail, h.players⟩⟩

/-! ## Lines and cells -/

theorem CleanCell.csvCell_eq {cell : JSString} (h : CleanCell cell) :
    csvCell cell = cell ∧ (∀ c ∈ cell, c ≠ quote ∧ c ≠ comma) ∨
      csvCell cell = quote :: (doubleQuotes cell ++ [quote]) := by
  rw [csvCell, h.neutral]
  split
  · exact .inr rfl
  · rename_i hany
    refine .inl ⟨rfl, fun c hc => ⟨?_, ?_⟩⟩
    · rintro rfl
      exact hany (List.any_eq_true.mpr ⟨_, hc, by decide⟩)
    · rintro rfl
      exact hany (List.any_eq_true.mpr ⟨_, hc, by decide⟩)

variable {cell current rest : JSString} {cells : List JSString} {c : UInt16}

theorem mem_doubleQuotes (h : c ∈ doubleQuotes cell) : c ∈ cell := by
  obtain ⟨d, hd, hc⟩ := List.mem_flatMap.mp h
  split at hc
  · rename_i hquote
    simp only [List.mem_cons, List.not_mem_nil, or_false, or_self] at hc
    rw [hc, ← hquote]
    exact hd
  · rw [List.mem_singleton.mp hc]
    exact hd

theorem CleanCell.mem_csvCell (h : CleanCell cell) (hc : c ∈ csvCell cell) :
    c ∈ cell ∨ c = quote := by
  rcases h.csvCell_eq with ⟨hcell, -⟩ | hcell
  · rw [hcell] at hc
    exact .inl hc
  · rw [hcell] at hc
    rcases List.mem_cons.mp hc with rfl | hc
    · exact .inr rfl
    · rcases List.mem_append.mp hc with hc | hc
      · exact .inl (mem_doubleQuotes hc)
      · exact .inr (List.mem_singleton.mp hc)

theorem mem_intercalate {sep : UInt16} {parts : List JSString} (h : c ∈ [sep].intercalate parts) :
    c = sep ∨ ∃ part ∈ parts, c ∈ part := by
  induction parts with
  | nil => cases h
  | cons part parts ih =>
    cases parts with
    | nil =>
      rw [List.intercalate_singleton] at h
      exact .inr ⟨part, .head _, h⟩
    | cons next parts =>
      rw [List.intercalate_cons_cons, List.mem_append, List.mem_append, List.mem_singleton] at h
      rcases h with (h | rfl) | h
      · exact .inr ⟨part, .head _, h⟩
      · exact .inl rfl
      · exact (ih h).imp_right fun ⟨p, hp, hc⟩ => ⟨p, .tail _ hp, hc⟩

/-- A line of clean cells. -/
def csvLine (cells : List JSString) : JSString := [comma].intercalate (cells.map csvCell)

theorem notMem_csvLine (hcells : ∀ cell ∈ cells, CleanCell cell) :
    10 ∉ csvLine cells ∧ 13 ∉ csvLine cells := by
  have hchar : ∀ c : UInt16, c ≠ comma → c ≠ quote → (∀ cell ∈ cells, c ∉ cell) →
      c ∉ csvLine cells := by
    intro c hcomma hquote hnot hc
    rcases mem_intercalate hc with rfl | ⟨part, hpart, hc⟩
    · exact hcomma rfl
    · obtain ⟨cell, hcell, rfl⟩ := List.mem_map.mp hpart
      rcases (hcells cell hcell).mem_csvCell hc with hc | rfl
      · exact hnot cell hcell hc
      · exact hquote rfl
  exact ⟨hchar 10 (by decide) (by decide) fun cell h => (hcells cell h).noLineFeed,
    hchar 13 (by decide) (by decide) fun cell h => (hcells cell h).noReturn⟩

/-- A text is cut into the lines that it was joined from. -/
theorem splitLines_intercalate {lines : List JSString} (hne : lines ≠ [])
    (hlines : ∀ line ∈ lines, 10 ∉ line ∧ 13 ∉ line) :
      splitLines ([10].intercalate lines) = lines := by
  have hcut :
      (lines.dropLast.map fun line => if line.getLast? = some 13 then line.dropLast else line) =
      lines.dropLast := by
    refine (List.map_congr_left fun line hline => ?_).trans (List.map_id _)
    refine if_neg fun hlast => ?_
    exact (hlines line (List.dropLast_subset _ hline)).2 (List.mem_of_getLast? hlast)
  rw [splitLines, List.splitOn_intercalate 10 (fun line h => (hlines line h).1) hne, hcut,
    List.getLast?_eq_some_getLast hne]
  exact List.dropLast_concat_getLast hne

theorem not_isWhiteSpace_quote : isWhiteSpace quote = false := by decide

theorem not_isWhiteSpace_comma : isWhiteSpace comma = false := by decide

theorem CleanCell.trimmed_csvCell (h : CleanCell cell) : Trimmed (csvCell cell) := by
  rcases h.csvCell_eq with ⟨hcell, -⟩ | hcell
  · rw [hcell]
    exact trim_eq_self_iff.mp h.trimmed
  · rw [hcell]
    constructor
    · rintro c ⟨⟩
      exact not_isWhiteSpace_quote
    · intro c hc
      rw [← List.cons_append, List.getLast?_concat] at hc
      obtain rfl := Option.some.inj hc
      exact not_isWhiteSpace_quote

theorem csvCell_ne_nil (hne : cell ≠ []) (h : CleanCell cell) : csvCell cell ≠ [] := by
  rcases h.csvCell_eq with ⟨hcell, -⟩ | hcell
  · rw [hcell]
    exact hne
  · rw [hcell]
    exact List.cons_ne_nil _ _

theorem head?_intercalate {sep : UInt16} {part text : JSString} {parts : List JSString}
    (hpart : part = c :: text) : ([sep].intercalate (part :: parts)).head? = some c := by
  cases parts with
  | nil => rw [List.intercalate_singleton, hpart, List.head?_cons]
  | cons =>
    rw [List.intercalate_cons_cons, hpart, List.append_assoc, List.cons_append, List.head?_cons]

theorem getLast?_intercalate {sep : UInt16} {parts : List JSString}
    (hsep : isWhiteSpace sep = false)
    (hparts : ∀ part ∈ parts, ∀ c ∈ part.getLast?, isWhiteSpace c = false) :
    ∀ c ∈ ([sep].intercalate parts).getLast?, isWhiteSpace c = false := by
  induction parts with
  | nil =>
    rintro c ⟨⟩
  | cons part parts ih =>
    cases parts with
    | nil =>
      rw [List.intercalate_singleton]
      exact hparts part (.head _)
    | cons next parts =>
      intro c hc
      rw [List.intercalate_cons_cons, List.append_assoc, List.getLast?_append,
        List.singleton_append,
        List.getLast?_cons] at hc
      obtain rfl := Option.some.inj hc
      cases hrest : ([sep].intercalate (next :: parts)).getLast? with
      | none => exact hsep
      | some d => exact ih (fun p hp => hparts p (.tail _ hp)) d hrest

/-- A line has no white space at its ends. -/
theorem trim_csvLine (hcells : ∀ cell ∈ cells, CleanCell cell)
    (hfirst : ∀ cell ∈ cells.head?, cell ≠ []) :
    trim (csvLine cells) = csvLine cells := by
  refine trim_eq_self_iff.mpr ⟨?_, ?_⟩
  · intro c hc
    cases cells with
    | nil => cases hc
    | cons cell cells =>
      obtain ⟨d, text, htext⟩ :=
        List.exists_cons_of_ne_nil (csvCell_ne_nil (hfirst cell rfl) (hcells cell (.head _)))
      refine (hcells cell (.head _)).trimmed_csvCell.1 c ?_
      rw [csvLine, List.map_cons, head?_intercalate htext] at hc
      rw [htext]
      exact hc
  · refine getLast?_intercalate not_isWhiteSpace_comma fun part hpart => ?_
    obtain ⟨cell, hcell, rfl⟩ := List.mem_map.mp hpart
    exact (hcells cell hcell).trimmed_csvCell.2

/-! ## A line is split into its cells -/

theorem splitCells_other {inQuotes : Bool} (hquote : c ≠ quote)
    (hcomma : c = comma → inQuotes = true) :
    splitCells current inQuotes (c :: rest) = splitCells (current ++ [c]) inQuotes rest := by
  cases inQuotes with
  | false =>
    have hne : c ≠ comma := fun h => Bool.noConfusion (hcomma h)
    cases rest <;> simp [splitCells, hquote, hne]
  | true => cases rest <;> simp [splitCells, hquote]

theorem splitCells_comma : splitCells current false (comma :: rest) =
    trim current :: splitCells [] false rest := by
  have hquote : comma ≠ quote := by decide
  cases rest <;> simp [splitCells, hquote]

theorem splitCells_plain (h : ∀ c ∈ cell, c ≠ quote ∧ c ≠ comma) :
    splitCells current false (cell ++ rest) = splitCells (current ++ cell) false rest := by
  induction cell generalizing current with
  | nil => simp
  | cons c cell ih =>
    obtain ⟨hquote, hcomma⟩ := h c (.head _)
    rw [List.cons_append, splitCells_other hquote fun h => absurd h hcomma,
      ih fun d hd => h d (.tail _ hd), List.append_assoc, List.singleton_append]

theorem splitCells_quoted (content : JSString) (hrest : rest.head? ≠ some quote) :
    splitCells current true (doubleQuotes content ++ quote :: rest) =
      splitCells (current ++ content) false rest := by
  induction content generalizing current with
  | nil =>
    cases rest with
    | nil => simp [doubleQuotes, splitCells]
    | cons d rest =>
      have hd : d ≠ quote := fun hd => hrest (by rw [hd]; rfl)
      simp [doubleQuotes, splitCells, hd]
  | cons c content ih =>
    have hdouble : doubleQuotes (c :: content) =
        (if c = quote then [quote, quote] else [c]) ++ doubleQuotes content := rfl
    by_cases hc : c = quote
    · subst hc
      rw [hdouble, if_pos rfl]
      simp [splitCells, ih]
    · rw [hdouble, if_neg hc, List.append_assoc, List.singleton_append,
        splitCells_other hc fun _ => rfl,
        ih, List.append_assoc, List.singleton_append]

theorem splitCells_csvCell (h : CleanCell cell) (hrest : rest.head? ≠ some quote) :
    splitCells [] false (csvCell cell ++ rest) = splitCells cell false rest := by
  rcases h.csvCell_eq with ⟨hcell, hplain⟩ | hcell
  · rw [hcell, splitCells_plain hplain, List.nil_append]
  · have hopen : splitCells [] false (quote :: (doubleQuotes cell ++ [quote]) ++ rest) =
        splitCells [] true (doubleQuotes cell ++ quote :: rest) := by
      simp [splitCells]
    rw [hcell, hopen, splitCells_quoted cell hrest, List.nil_append]

theorem splitCsvLine_csvLine (hne : cells ≠ []) (hcells : ∀ cell ∈ cells, CleanCell cell) :
    splitCsvLine (csvLine cells) = cells := by
  rw [splitCsvLine, csvLine]
  induction cells with
  | nil => exact absurd rfl hne
  | cons cell cells ih =>
    have hcell := hcells cell (.head _)
    cases cells with
    | nil =>
      have hsplit : splitCells [] false (csvCell cell ++ []) = _ :=
        splitCells_csvCell hcell (by simp)
      rw [List.append_nil] at hsplit
      rw [List.map_singleton, List.intercalate_singleton, hsplit, splitCells, hcell.trimmed]
    | cons next cells =>
      have htail := ih (List.cons_ne_nil _ _) fun cell h => hcells cell (.tail _ h)
      rw [List.map_cons] at htail
      rw [List.map_cons, List.map_cons, List.intercalate_cons_cons, List.append_assoc,
        splitCells_csvCell hcell (by simp; decide), List.singleton_append, splitCells_comma,
        hcell.trimmed, htail]

/-! ## The map of teams -/

section Teams
variable {lower : JSString → JSString} {teams : TeamMap} {key : JSString} {team : TeamCsvRow}

theorem TeamMap.insertNew_new (h : key ∉ teams.map (·.1)) :
    teams.insertNew key team = teams ++ [(key, team)] := by
  refine if_neg fun hany => h ?_
  obtain ⟨entry, hentry, hkey⟩ := List.any_eq_true.mp hany
  exact List.mem_map.mpr ⟨entry, hentry, of_decide_eq_true hkey⟩

theorem TeamMap.insertNew_old {other : TeamCsvRow} :
    TeamMap.insertNew (teams ++ [(key, other)]) key team = teams ++ [(key, other)] :=
  if_pos (by simp)

theorem TeamMap.pushPlayer_last (h : key ∉ teams.map (·.1)) {player : TeamCsvPlayer} :
    TeamMap.pushPlayer (teams ++ [(key, team)]) key player =
      teams ++ [(key, { team with players := team.players ++ [player] })] := by
  rw [TeamMap.pushPlayer, List.map_append, List.map_singleton, if_pos rfl]
  refine congrArg (· ++ _) ((List.map_congr_left fun entry hentry => ?_).trans (List.map_id _))
  exact if_neg fun hkey => h (List.mem_map.mpr ⟨entry, hentry, hkey⟩)

theorem cleanCell_nil : CleanCell [] := ⟨rfl, by simp, by simp, rfl⟩

theorem cleanCell_header : ∀ cell ∈ teamCsvHeader, CleanCell cell := by
  have h : ∀ cell ∈ teamCsvHeader, trim cell = cell ∧ 10 ∉ cell ∧ 13 ∉ cell ∧
      neutralizeFormula cell = cell :=
    List.forall_iff_forall_mem.mp (by decide)
  exact fun cell hcell =>
    ⟨(h cell hcell).1, (h cell hcell).2.1, (h cell hcell).2.2.1, (h cell hcell).2.2.2⟩

/-- The cells of a row, by the header of an export. -/
theorem column_header (n e d m p r absent : JSString) :
    column (some teamCsvHeader) [n, e, d, m, p, r] "team_name" 0 absent = n ∧
    column (some teamCsvHeader) [n, e, d, m, p, r] "contact_email" 1 absent = e ∧
    column (some teamCsvHeader) [n, e, d, m, p, r] "player_display_name" 2 absent = d ∧
    column (some teamCsvHeader) [n, e, d, m, p, r] "player_email" 3 absent = m ∧
    column (some teamCsvHeader) [n, e, d, m, p, r] "player_password" 4 absent = p ∧
    column (some teamCsvHeader) [n, e, d, m, p, r] "player_role" 5 absent = r := by
  have hindex : ∀ name index, teamCsvHeader.idxOf? (ascii name) = some index →
      column (some teamCsvHeader) [n, e, d, m, p, r] name index absent =
        ([n, e, d, m, p, r][index]?).getD absent := by
    intro name index h
    rw [column, h]
    rfl
  exact ⟨hindex _ 0 (by decide), hindex _ 1 (by decide), hindex _ 2 (by decide),
    hindex _ 3 (by decide),
    hindex _ 4 (by decide), hindex _ 5 (by decide)⟩

/-- A row of clean cells goes to the team of its first two. -/
theorem parseRow_csvLine {n e d m p r : JSString}
    (hcells : ∀ cell ∈ [n, e, d, m, p, r], CleanCell cell) (hname : n ≠ []) (hcontact : e ≠ []) :
    parseRow lower (some teamCsvHeader) teams (csvLine [n, e, d, m, p, r]) =
      let teams :=
        teams.insertNew (teamKey lower n e) { name := n, contactEmail := e, players := [] }
      if d = [] || m = [] || p = [] then teams
      else teams.pushPlayer (teamKey lower n e)
        { displayName := d, email := m, password := p,
          role := if r = [] then ascii "member" else r } := by
  have htrim : trim n = n ∧ trim e = e ∧ trim d = d ∧ trim m = m ∧ trim p = p ∧ trim r = r := by
    simp only [List.forall_mem_cons] at hcells
    obtain ⟨hn, he, hd, hm, hp, hr, -⟩ := hcells
    exact ⟨hn.trimmed, he.trimmed, hd.trimmed, hm.trimmed, hp.trimmed, hr.trimmed⟩
  obtain ⟨hn, he, hd, hm, hp, hr⟩ := htrim
  obtain ⟨hname', hcontact', hdisplay, hemail, hpassword, -⟩ := column_header n e d m p r []
  obtain ⟨-, -, -, -, -, hrole⟩ := column_header n e d m p r (ascii "member")
  rw [parseRow, splitCsvLine_csvLine (List.cons_ne_nil _ _) hcells, hname', hcontact',
    hdisplay, hemail,
    hpassword, hrole, hn, he, if_neg (by simp [hname, hcontact])]
  dsimp only
  rw [hd, hm, hp, hr]

theorem playerCells {player : TeamCsvPlayer} (hname : CleanCell team.name)
    (hcontact : CleanCell team.contactEmail) (h : CleanPlayer player) :
    (∀ cell ∈ [team.name, team.contactEmail, player.displayName, player.email, player.password,
        player.role], CleanCell cell) ∧
      player.displayName ≠ [] ∧ player.email ≠ [] ∧ player.password ≠ [] ∧ player.role ≠ [] := by
  have hcells := h.cells
  simp only [List.forall_mem_cons] at hcells
  obtain ⟨hd, hm, hp, hr, -⟩ := hcells
  have hblank : ∀ {cell : JSString}, CleanCell cell ∧ trim cell ≠ [] → cell ≠ [] := by
    rintro cell ⟨hcell, hne⟩
    rwa [hcell.trimmed] at hne
  refine ⟨?_, hblank hd, hblank hm, hblank hp, hblank hr⟩
  simp only [List.forall_mem_cons]
  exact ⟨hname, hcontact, hd.1, hm.1, hp.1, hr.1, by simp⟩

/-- The rows of the players behind the first one. -/
theorem foldl_players (hname : CleanCell team.name) (hcontact : CleanCell team.contactEmail)
    (hne : team.name ≠ [] ∧ team.contactEmail ≠ [])
    (hkey : teamKey lower team.name team.contactEmail ∉ teams.map (·.1))
    (before : List TeamCsvPlayer)
    {after : List TeamCsvPlayer}
    (hplayers : ∀ player ∈ after, CleanPlayer player) :
    (after.map fun player =>
      csvLine [team.name, team.contactEmail, player.displayName, player.email,
        player.password, player.role]).foldl (parseRow lower (some teamCsvHeader))
      (teams ++ [(teamKey lower team.name team.contactEmail, { team with players := before })]) =
    teams ++
      [(teamKey lower team.name team.contactEmail, { team with players := before ++ after })] := by
  induction after generalizing before with
  | nil => simp
  | cons player after ih =>
    obtain ⟨hcells, hd, hm, hp, hr⟩ := playerCells hname hcontact (hplayers player (.head _))
    rw [List.map_cons, List.foldl_cons, parseRow_csvLine hcells hne.1 hne.2, TeamMap.insertNew_old]
    dsimp only
    rw [if_neg (by simp [hd, hm, hp]), if_neg hr,
      TeamMap.pushPlayer_last hkey]
    have hrest := ih (before ++ [player]) fun player h => hplayers player (.tail _ h)
    rw [List.append_assoc, List.singleton_append] at hrest
    exact hrest

/-- The rows of a team that is new to the map. -/
theorem foldl_teamRows (hclean : CleanTeam team) (hne : team.name ≠ [] ∧ team.contactEmail ≠ [])
    (hkey : teamKey lower team.name team.contactEmail ∉ teams.map (·.1)) :
    ((teamRows team).map csvLine).foldl (parseRow lower (some teamCsvHeader)) teams =
      teams ++ [(teamKey lower team.name team.contactEmail, team)] := by
  obtain ⟨name, contactEmail, players⟩ := team
  cases players with
  | nil =>
    have hcells : ∀ cell ∈ [name, contactEmail, [], [], [], []], CleanCell cell := by
      simp only [List.forall_mem_cons]
      exact ⟨hclean.name, hclean.contactEmail, cleanCell_nil, cleanCell_nil, cleanCell_nil,
        cleanCell_nil, by simp⟩
    rw [teamRows, if_pos rfl, List.map_singleton, List.foldl_cons, List.foldl_nil,
      parseRow_csvLine hcells hne.1 hne.2, TeamMap.insertNew_new hkey]
    rfl
  | cons player players =>
    -- the first row inserts the team, as if it had been there without players
    obtain ⟨hcells, -⟩ :=
      playerCells hclean.name hclean.contactEmail (hclean.players player (.head _))
    have hfirst : parseRow lower (some teamCsvHeader) teams
          (csvLine [name, contactEmail, player.displayName, player.email, player.password,
            player.role]) =
        parseRow lower (some teamCsvHeader)
          (teams ++ [(teamKey lower name contactEmail, ⟨name, contactEmail, []⟩)])
          (csvLine [name, contactEmail, player.displayName, player.email, player.password,
            player.role]) := by
      rw [parseRow_csvLine hcells hne.1 hne.2, parseRow_csvLine hcells hne.1 hne.2,
        TeamMap.insertNew_new hkey, TeamMap.insertNew_old]
    have hplayers := foldl_players hclean.name hclean.contactEmail hne hkey [] hclean.players
    rw [List.map_cons, List.foldl_cons, ← hfirst] at hplayers
    rw [teamRows, if_neg (List.cons_ne_nil _ _), List.map_map, List.map_cons, List.foldl_cons]
    exact hplayers

end Teams

/-- The lines of an export. -/
theorem toCsv_eq_lines (rows : List (List JSString)) :
    toCsv rows = [10].intercalate (rows.map csvLine) := rfl

/-- The lines of an export are read as they were written. -/
theorem lines_toCsv {teams : List TeamCsvRow} (hclean : ∀ team ∈ teams, CleanTeam team)
    (hname : ∀ team ∈ teams, trim team.name ≠ [] ∧ trim team.contactEmail ≠ []) :
    ((splitLines (toCsv (teamCsvHeader :: teams.flatMap teamRows))).map trim).filter (· ≠ []) =
      csvLine teamCsvHeader :: (teams.flatMap teamRows).map csvLine := by
  have hrows : ∀ row ∈ teamCsvHeader :: teams.flatMap teamRows,
      (∀ cell ∈ row, CleanCell cell) ∧ ∃ cell cells, row = cell :: cells ∧ cell ≠ [] := by
    intro row hrow
    rcases List.mem_cons.mp hrow with rfl | hrow
    · exact ⟨cleanCell_header, _, _, rfl, by decide⟩
    obtain ⟨team, hteam, hrow⟩ := List.mem_flatMap.mp hrow
    have hteam' := hclean team hteam
    have hne : team.name ≠ [] := by
      have hblank := (hname team hteam).1
      rwa [hteam'.name.trimmed] at hblank
    rw [teamRows] at hrow
    split at hrow
    · rw [List.mem_singleton.mp hrow]
      refine ⟨?_, _, _, rfl, hne⟩
      simp only [List.forall_mem_cons]
      exact ⟨hteam'.name, hteam'.contactEmail, cleanCell_nil, cleanCell_nil, cleanCell_nil,
        cleanCell_nil, by simp⟩
    · obtain ⟨player, hplayer, rfl⟩ := List.mem_map.mp hrow
      exact ⟨(playerCells hteam'.name hteam'.contactEmail (hteam'.players player hplayer)).1, _,
        _, rfl, hne⟩
  rw [toCsv_eq_lines, splitLines_intercalate (by simp)]
  · rw [← List.map_cons]
    have htrim : ((teamCsvHeader :: teams.flatMap teamRows).map csvLine).map trim =
        (teamCsvHeader :: teams.flatMap teamRows).map csvLine := by
      rw [List.map_map]
      refine List.map_congr_left fun row hrow => ?_
      obtain ⟨hcells, cell, cells, rfl, hne⟩ := hrows row hrow
      exact trim_csvLine hcells (by rintro c ⟨⟩; exact hne)
    rw [htrim, List.filter_eq_self]
    intro line hline
    obtain ⟨row, hrow, rfl⟩ := List.mem_map.mp hline
    obtain ⟨hcells, cell, cells, rfl, hne⟩ := hrows row hrow
    obtain ⟨c, text, htext⟩ :=
      List.exists_cons_of_ne_nil (csvCell_ne_nil hne (hcells cell (.head _)))
    have hhead : (csvLine (cell :: cells)).head? = some c := head?_intercalate htext
    rw [decide_eq_true_eq]
    intro hnil
    rw [hnil] at hhead
    cases hhead
  · intro line hline
    obtain ⟨row, hrow, rfl⟩ := List.mem_map.mp hline
    exact notMem_csvLine (hrows row hrow).1

/-- All rows of an export, by induction on the teams that are left. -/
theorem foldl_teams {lower : JSString → JSString} {teams : List TeamCsvRow} {map : TeamMap}
    (hclean : ∀ team ∈ teams, CleanTeam team)
    (hname : ∀ team ∈ teams, trim team.name ≠ [] ∧ trim team.contactEmail ≠ [])
    (hkeys : (teams.map fun team => teamKey lower team.name team.contactEmail).Nodup)
    (hnew : ∀ team ∈ teams, teamKey lower team.name team.contactEmail ∉ map.map (·.1)) :
    ((teams.flatMap teamRows).map csvLine).foldl (parseRow lower (some teamCsvHeader)) map =
      map ++ teams.map fun team => (teamKey lower team.name team.contactEmail, team) := by
  induction teams generalizing map with
  | nil => simp
  | cons team teams ih =>
    have hteam := hclean team (.head _)
    have hne : team.name ≠ [] ∧ team.contactEmail ≠ [] := by
      have hblank := hname team (.head _)
      rwa [hteam.name.trimmed, hteam.contactEmail.trimmed] at hblank
    rw [List.map_cons, List.nodup_cons] at hkeys
    rw [List.flatMap_cons, List.map_append, List.foldl_append,
      foldl_teamRows hteam hne (hnew team (.head _)),
      ih (fun team h => hclean team (.tail _ h)) (fun team h => hname team (.tail _ h)) hkeys.2]
    · simp
    · intro other hother
      rw [List.map_append, List.map_singleton, List.mem_append, List.mem_singleton, not_or]
      refine ⟨hnew other (.tail _ hother), fun heq => hkeys.1 ?_⟩
      exact List.mem_map.mpr ⟨other, hother, heq⟩

/-- Reading takes back the teams that were written, where all of them have keys of their own. -/
theorem parseTeamCsv_toCsv (lower : JSString → JSString)
    (hlower : ∀ name ∈ teamCsvHeader, lower name = name) (teams : List TeamCsvRow)
    (hclean : ∀ team ∈ teams, CleanTeam team)
    (hname : ∀ team ∈ teams, trim team.name ≠ [] ∧ trim team.contactEmail ≠ [])
    (hkeys : (teams.map fun team => teamKey lower team.name team.contactEmail).Nodup) :
    parseTeamCsv lower (toCsv (teamCsvHeader :: teams.flatMap teamRows)) = teams := by
  have hlines := lines_toCsv hclean hname
  have hheader : (splitCsvLine (csvLine teamCsvHeader)).map lower = teamCsvHeader := by
    rw [splitCsvLine_csvLine (by decide) cleanCell_header]
    exact (List.map_congr_left hlower).trans (List.map_id _)
  rw [parseTeamCsv, hlines]
  dsimp only
  rw [hheader, if_pos (by decide), if_pos (by decide), foldl_teams hclean hname hkeys (by simp),
    List.nil_append, List.map_map]
  exact (List.map_congr_left fun _ _ => rfl).trans (List.map_id _)

/-- `toLowerCase` on ASCII characters. -/
def lowerASCII (s : JSString) : JSString := s.map fun c => if 65 ≤ c && c ≤ 90 then c + 32 else c

/-- Quotes, separators and a player's name that looks like two cells. -/
def quotedTeams : List TeamCsvRow :=
  [⟨ascii "A, \"B\"", ascii "a@example.org",
      [⟨ascii "Eve|1", ascii "e@example.org", ascii "p,\"w\"", ascii "captain"⟩,
        ⟨ascii "Bob\",\"", ascii "b@example.org", ascii "12345678", ascii "member"⟩]⟩,
    ⟨ascii "a, \"b\"", ascii "c@example.org", []⟩]

theorem parseTeamCsv_quotedTeams :
    parseTeamCsv lowerASCII (toCsv (teamCsvHeader :: quotedTeams.flatMap teamRows)) = quotedTeams :=
  parseTeamCsv_toCsv lowerASCII (by decide +kernel) quotedTeams (by decide +kernel) (by
    decide +kernel)
    (by decide +kernel)

/-- Two teams of one key, and a team without a name. -/
def joinedTeams : List TeamCsvRow := [⟨ascii "a|b", ascii "c", []⟩, ⟨ascii "a", ascii "b|c", []⟩]

/-- A team without a name. -/
def namelessTeams : List TeamCsvRow := [⟨[], ascii "a@example.org", []⟩]

/-- The second team is lost in the first, and a team without a name is passed over. -/
theorem parseTeamCsv_loses :
    ((∀ team ∈ joinedTeams, CleanTeam team) ∧
      joinedTeams.Pairwise (fun a b => (lowerASCII a.name, lowerASCII a.contactEmail) ≠
        (lowerASCII b.name, lowerASCII b.contactEmail)) ∧
      parseTeamCsv lowerASCII (toCsv (teamCsvHeader :: joinedTeams.flatMap teamRows)) ≠
        joinedTeams) ∧
    (∀ team ∈ namelessTeams, CleanTeam team) ∧
      parseTeamCsv lowerASCII (toCsv (teamCsvHeader :: namelessTeams.flatMap teamRows)) ≠
        namelessTeams := by
  decide +kernel

end ADPlatform.Web
