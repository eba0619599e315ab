import CodeAtlas.Proofs.ExternalTargets

/-!
# Reading drawings

A drawing is written as a DOT text, with names and labels in quotes.  The names come from paths and
specifiers and may hold anything: quotes, backslashes, line ends, or what looks like a statement.
A reader of DOT texts is given here.  Inside quotes a backslash makes the next character literal,
and the first quote that is not escaped ends the text; what is not in quotes are words and signs.
Every drawing is read back, with its nodes, their marks and its edges.

The reader goes through the characters with a state.  So the pieces of which a text is put together
can be read one by one, each from the state in which the one before it ends.

Main results:

- Theorem {lit}`Dot.scan_append`: a text is read piece by piece.
- Theorem {lit}`Dot.flatMap_escapeChar`: escaping is two replacements in turn.
- Theorem {lit}`Dot.scan_quoted`: a text in quotes is one token, whatever it holds.
- Theorem {lit}`Dot.read?_render`: every drawing is read back.
- Theorem {lit}`Graph.dot_reads_back`: what is drawn of a graph is read back.
-/

namespace CodeAtlas
namespace Dependency
namespace Dot

/-! ## Tokens -/

/-- A token of a DOT text. -/
inductive Token where
  | word (spelling : String)
  | text (content : String)
  | sign (c : Char)
  | arrow
  deriving DecidableEq

/-- Where the reader stands: between tokens, or inside one of which it has read a part. -/
inductive Mode where
  | between
  | word (part : List Char)
  | text (part : List Char)
  /-- After a backslash inside quotes. -/
  | escape (part : List Char)
  /-- After the first character of an arrow. -/
  | dash
  deriving DecidableEq

/-- The characters that are tokens of their own. -/
def signs : List Char := ['\x7b', '\x7d', '[', ']', '=', ',', ';']

/-- Reads a character between tokens: the tokens that end with it, and the mode after it. -/
def start (c : Char) : Option (List Token × Mode) :=
  if c.isWhitespace then some ([], .between)
  else if c ∈ signs then some ([.sign c], .between)
  else if c = '"' then some ([], .text [])
  else if c = '-' then some ([], .dash)
  else if c.isAlphanum then some ([], .word [c])
  else none

/-- Reads a character. -/
def step : Mode → Char → Option (List Token × Mode)
  | .between, c => start c
  | .word part, c =>
      if c.isAlphanum then some ([], .word (part ++ [c]))
      else (start c).map fun (tokens, mode) => (.word (String.ofList part) :: tokens, mode)
  | .text part, c =>
      if c = '\\' then some ([], .escape part)
      else if c = '"' then some ([.text (String.ofList part)], .between)
      else some ([], .text (part ++ [c]))
  | .escape part, c => some ([], .text (part ++ [c]))
  | .dash, c => if c = '>' then some ([.arrow], .between) else none

/-- Reads characters one after the other. -/
def scan (mode : Mode) : List Char → Option (List Token × Mode)
  | [] => some ([], mode)
  | c :: rest => do
      let (tokens, next) ← step mode c
      let (more, last) ← scan next rest
      some (tokens ++ more, last)

/-- The tokens of a text that does not break off inside one. -/
def tokens? (text : String) : Option (List Token) :=
  match scan .between text.toList with
  | some (tokens, .between) => some tokens
  | _ => none

/-! ## Statements -/

/-- A statement of a DOT text. -/
inductive Statement where
  | setting (name value : String)
  | node (name : String) (attributes : List (String × String))
  | edge (source target : String) (attributes : List (String × String))
  deriving DecidableEq

/-- The tokens up to each semicolon, and those that follow the last one. -/
def sentences : List Token → List (List Token) × List Token
  | [] => ([], [])
  | token :: rest =>
      if token = .sign ';' then ([] :: (sentences rest).1, (sentences rest).2)
      else
        match sentences rest with
        | ([], last) => ([], token :: last)
        | (sentence :: more, last) => ((token :: sentence) :: more, last)

/-- The value that a token stands for. -/
def Token.value? : Token → Option String
  | .word spelling => some spelling
  | .text content => some content
  | _ => none

/-- The attributes up to a closing bracket. -/
def attributes? : List Token → Option (List (String × String))
  | [.word name, .sign '=', token, .sign ']'] => token.value?.map fun value => [(name, value)]
  | .word name :: .sign '=' :: token :: .sign ',' :: rest => do
      let value ← token.value?
      let more ← attributes? rest
      some ((name, value) :: more)
  | _ => none

/-- The statement that a sentence makes. -/
def statement? : List Token → Option Statement
  | [.word name, .sign '=', .word value] => some (.setting name value)
  | .text name :: .sign '[' :: rest => (attributes? rest).map (.node name)
  | .text source :: .arrow :: .text target :: .sign '[' :: rest =>
      (attributes? rest).map (.edge source target)
  | _ => none

/-! ## Pictures -/

/-- What a DOT text shows: nodes by name, with their labels and marks, and edges by their ends, with
their labels. -/
structure Picture where
  nodes : List (String × String × Mark)
  edges : List (String × String × String)
  deriving DecidableEq

/-- The mark that the attributes of a node give. -/
def markOf (attributes : List (String × String)) : Mark :=
  if attributes.lookup "style" = some "dashed" then .dashed
  else if attributes.lookup "color" = some "red" then .red
  else .plain

/-- The node that a statement declares.  Without a label, it is shown with its name. -/
def Statement.node? : Statement → Option (String × String × Mark)
  | .node name attributes =>
      some (name, (attributes.lookup "label").getD name, markOf attributes)
  | _ => none

/-- The edge that a statement declares. -/
def Statement.edge? : Statement → Option (String × String × String)
  | .edge source target attributes =>
      some (source, target, (attributes.lookup "label").getD "")
  | _ => none

/-- The picture that statements give. -/
def Picture.ofStatements (statements : List Statement) : Picture where
  nodes := statements.filterMap Statement.node?
  edges := statements.filterMap Statement.edge?

/-- Reads the statements between the brackets of a graph. -/
def statements? : List Token → Option (List Statement)
  | .word "digraph" :: .word _ :: .sign '\x7b' :: body =>
      match sentences body with
      | (found, [.sign '\x7d']) => found.mapM statement?
      | _ => none
  | _ => none

/-- Reads a DOT text. -/
def read? (text : String) : Option Picture := do
  let tokens ← tokens? text
  let statements ← statements? tokens
  some (.ofStatements statements)

/-! ## Tokens of drawings -/

/-- A text is read piece by piece, each piece from the mode in which the one before it ends. -/
theorem scan_append {mode next last : Mode} {xs ys : List Char} {tokens more : List Token}
    (hxs : scan mode xs = some (tokens, next)) (hys : scan next ys = some (more, last)) :
    scan mode (xs ++ ys) = some (tokens ++ more, last) := by
  induction xs generalizing mode tokens with
  | nil =>
      cases hxs
      exact hys
  | cons c xs ih =>
      simp only [scan, Option.bind_eq_bind, Option.bind_eq_some_iff] at hxs
      obtain ⟨⟨first, after⟩, hstep, ⟨found, reached⟩, hscan, heq⟩ := hxs
      cases heq
      simp [scan, hstep, ih hscan]

/-- A text in which a character is replaced wherever it occurs. -/
def replaceChar (old : Char) (new cs : List Char) : List Char :=
  cs.flatMap fun c => if c = old then new else [c]

/-- Characters are escaped by two replacements: backslashes are doubled first, and then each quote
gets a backslash, which is not doubled any more. -/
theorem flatMap_escapeChar (cs : List Char) :
    cs.flatMap Drawing.escapeChar =
      replaceChar '"' ['\\', '"'] (replaceChar '\\' ['\\', '\\'] cs) := by
  have hchar (c : Char) : Drawing.escapeChar c =
      replaceChar '"' ['\\', '"'] (if c = '\\' then ['\\', '\\'] else [c]) := by
    by_cases hslash : c = '\\'
    · rw [hslash]
      decide
    · by_cases hquote : c = '"'
      · rw [hquote]
        decide
      · simp [Drawing.escapeChar, replaceChar, hslash, hquote]
  rw [replaceChar, replaceChar, List.flatMap_assoc, funext hchar]
  rfl

/-- A character inside quotes is read back, escaped or not. -/
theorem scan_escapeChar (part : List Char) (c : Char) :
    scan (.text part) (Drawing.escapeChar c) = some ([], .text (part ++ [c])) := by
  rcases Drawing.escapeChar_cases c with h | ⟨h, hslash, hquote⟩
  · rw [h]
    rfl
  · rw [h]
    simp [scan, step, hslash, hquote]

/-- The characters inside quotes are read back. -/
theorem scan_escaped (part cs : List Char) :
    scan (.text part) (cs.flatMap Drawing.escapeChar) = some ([], .text (part ++ cs)) := by
  induction cs generalizing part with
  | nil => simp [scan]
  | cons c cs ih =>
      rw [List.flatMap_cons, List.append_cons]
      exact scan_append (scan_escapeChar part c) (ih (part ++ [c]))

/-- A text in quotes is one token, whatever it holds. -/
theorem scan_quoted (text : String) :
    scan .between (Drawing.quoted text).toList = some ([.text text], .between) := by
  have hopen : scan .between ['"'] = some ([], .text []) := rfl
  have hclose : scan (.text text.toList) ['"'] = some ([.text text], .between) := by
    simp [scan, step]
  rw [Drawing.quoted, String.toList_ofList]
  exact scan_append hopen (scan_append (scan_escaped [] text.toList) hclose)

example : scan .between (Drawing.quoted "a\" -> \"b\\").toList =
    some ([.text "a\" -> \"b\\"], .between) := by decide

/-- The tokens of the attributes that a mark adds. -/
def markTokens : Mark → List Token
  | .plain => []
  | .red => [.sign ',', .word "color", .sign '=', .word "red"]
  | .dashed =>
      [.sign ',', .word "shape", .sign '=', .word "box",
        .sign ',', .word "style", .sign '=', .word "dashed"]

/-- The tokens of a node. -/
def nodeTokens (node : String × Mark) : List Token :=
  [.text node.1, .sign '[', .word "label", .sign '=', .text node.1] ++ markTokens node.2 ++
    [.sign ']']

/-- The tokens of an edge. -/
def edgeTokens (edge : Edge) : List Token :=
  [.text edge.source, .arrow, .text edge.target,
    .sign '[', .word "label", .sign '=', .text edge.kind.label, .sign ']']

/-- The indentation of a line holds no token. -/
theorem scan_indent : scan .between "  ".toList = some ([], .between) := by decide

/-- What stands before a label is read to three tokens. -/
theorem scan_label : scan .between " [label=".toList =
    some ([.sign '[', .word "label", .sign '='], .between) := by decide

/-- Attributes that a mark adds end inside a word, which the closing bracket ends. -/
theorem scan_mark (mark : Mark) :
    scan .between (mark.attributes ++ "];\n").toList =
      some (markTokens mark ++ [.sign ']', .sign ';'], .between) := by
  cases mark with
  | plain => decide
  | red => decide
  | dashed => decide

/-- The line of a node is read to its tokens, whatever its name holds. -/
theorem scan_nodeLine (node : String × Mark) :
    scan .between (Drawing.nodeLine node).toList =
      some (nodeTokens node ++ [.sign ';'], .between) := by
  have hline := scan_append scan_indent (scan_append (scan_quoted node.1)
    (scan_append scan_label (scan_append (scan_quoted node.1) (scan_mark node.2))))
  simpa [Drawing.nodeLine, nodeTokens] using hline

/-- The line of an edge is read to its tokens, whatever its ends are called. -/
theorem scan_edgeLine (edge : Edge) :
    scan .between (Drawing.edgeLine edge).toList =
      some (edgeTokens edge ++ [.sign ';'], .between) := by
  have harrow : scan .between " -> ".toList = some ([.arrow], .between) := by decide
  have hend : scan .between "];\n".toList = some ([.sign ']', .sign ';'], .between) := by decide
  have hline := scan_append scan_indent (scan_append (scan_quoted edge.source)
    (scan_append harrow (scan_append (scan_quoted edge.target)
      (scan_append scan_label (scan_append (scan_quoted edge.kind.label) hend)))))
  simpa [Drawing.edgeLine, edgeTokens] using hline

/-- Sentences one after the other, each with its semicolon. -/
def ended (found : List (List Token)) : List Token := found.flatMap (· ++ [.sign ';'])

/-- Lines are read to the sentences that they hold. -/
theorem scan_lines {α : Type} {line : α → String} {tokensOf : α → List Token}
    (hline : ∀ item, scan .between (line item).toList =
      some (tokensOf item ++ [.sign ';'], .between)) (items : List α) :
    scan .between (String.join (items.map line)).toList =
      some (ended (items.map tokensOf), .between) := by
  induction items with
  | nil => simp [scan, ended]
  | cons item items ih =>
      have happend := scan_append (hline item) ih
      simpa [ended] using happend

/-- The sentences of a drawing: a setting, the nodes and the edges. -/
def sentencesOf (drawing : Drawing) : List (List Token) :=
  [.word "rankdir", .sign '=', .word "LR"] ::
    (drawing.nodes.map nodeTokens ++ drawing.edges.map edgeTokens)

/-- The tokens of a drawing are its sentences between two brackets. -/
theorem tokens?_render (drawing : Drawing) :
    tokens? drawing.render =
      some ([.word "digraph", .word "Dependencies", .sign '\x7b'] ++
        ended (sentencesOf drawing) ++ [.sign '\x7d']) := by
  have hopen : scan .between "digraph Dependencies \x7b\n  rankdir=LR;\n".toList =
      some ([.word "digraph", .word "Dependencies", .sign '\x7b',
        .word "rankdir", .sign '=', .word "LR", .sign ';'], .between) := by decide
  have hclose : scan .between "\x7d\n".toList = some ([.sign '\x7d'], .between) := by decide
  have hscan := scan_append hopen (scan_append (scan_lines scan_nodeLine drawing.nodes)
    (scan_append (scan_lines scan_edgeLine drawing.edges) hclose))
  have hpieces : drawing.render.toList =
      "digraph Dependencies \x7b\n  rankdir=LR;\n".toList ++
        ((String.join (drawing.nodes.map Drawing.nodeLine)).toList ++
          ((String.join (drawing.edges.map Drawing.edgeLine)).toList ++ "\x7d\n".toList)) := by
    unfold Drawing.render
    simp only [String.toList_append, List.append_assoc]
  rw [tokens?, hpieces, hscan]
  simp [ended, sentencesOf]

/-! ## Statements of drawings -/

/-- A sentence without a semicolon is found as it stands. -/
theorem sentences_append {sentence : List Token} (hfree : .sign ';' ∉ sentence)
    (rest : List Token) :
    sentences (sentence ++ .sign ';' :: rest) =
      (sentence :: (sentences rest).1, (sentences rest).2) := by
  induction sentence with
  | nil => simp [sentences]
  | cons token sentence ih =>
      rw [List.mem_cons, not_or] at hfree
      rw [List.cons_append, sentences, if_neg (Ne.symm hfree.1), ih hfree.2]

/-- Sentences with their semicolons are found one by one. -/
theorem sentences_ended {found : List (List Token)}
    (hfree : ∀ sentence ∈ found, .sign ';' ∉ sentence) (rest : List Token) :
    sentences (ended found ++ rest) = (found ++ (sentences rest).1, (sentences rest).2) := by
  induction found with
  | nil => rfl
  | cons sentence found ih =>
      have htail := ih fun other hother => hfree other (List.mem_cons_of_mem _ hother)
      have hsplit : ended (sentence :: found) ++ rest =
          sentence ++ .sign ';' :: (ended found ++ rest) := by simp [ended]
      rw [hsplit, sentences_append (hfree sentence List.mem_cons_self), htail, List.cons_append]

/-- Semicolons inside quotes do not count: none of the sentences of a drawing has one. -/
theorem sentencesOf_free (drawing : Drawing) :
    ∀ sentence ∈ sentencesOf drawing, .sign ';' ∉ sentence := by
  intro sentence hmem
  simp only [sentencesOf, List.mem_cons, List.mem_append, List.mem_map] at hmem
  rcases hmem with rfl | ⟨node, -, rfl⟩ | ⟨edge, -, rfl⟩
  · decide
  · cases hmark : node.2 <;> simp [nodeTokens, markTokens, hmark]
  · simp [edgeTokens]

/-- The attributes that a mark adds. -/
def markAttributes : Mark → List (String × String)
  | .plain => []
  | .red => [("color", "red")]
  | .dashed => [("shape", "box"), ("style", "dashed")]

/-- The statement of a node. -/
def nodeStatement (node : String × Mark) : Statement :=
  .node node.1 (("label", node.1) :: markAttributes node.2)

/-- The statement of an edge. -/
def edgeStatement (edge : Edge) : Statement :=
  .edge edge.source edge.target [("label", edge.kind.label)]

/-- The statements of a drawing. -/
def statementsOf (drawing : Drawing) : List Statement :=
  .setting "rankdir" "LR" ::
    (drawing.nodes.map nodeStatement ++ drawing.edges.map edgeStatement)

/-- The sentence of a node makes its statement. -/
theorem statement?_nodeTokens (node : String × Mark) :
    statement? (nodeTokens node) = some (nodeStatement node) := by
  obtain ⟨name, mark⟩ := node
  cases mark with
  | plain => rfl
  | red => rfl
  | dashed => rfl

/-- The sentence of an edge makes its statement. -/
theorem statement?_edgeTokens (edge : Edge) :
    statement? (edgeTokens edge) = some (edgeStatement edge) := rfl

/-- Where each sentence makes a statement, so do all of them. -/
theorem mapM_statement?_map {α : Type} {tokensOf : α → List Token} {statementOf : α → Statement}
    (hone : ∀ item, statement? (tokensOf item) = some (statementOf item)) (items : List α) :
    (items.map tokensOf).mapM statement? = some (items.map statementOf) := by
  induction items with
  | nil => rfl
  | cons item items ih => simp [hone, ih]

/-- The sentences of a drawing make its statements. -/
theorem mapM_sentencesOf (drawing : Drawing) :
    (sentencesOf drawing).mapM statement? = some (statementsOf drawing) := by
  rw [sentencesOf, List.mapM_cons, List.mapM_append, mapM_statement?_map statement?_nodeTokens,
    mapM_statement?_map statement?_edgeTokens]
  rfl

/-- A mark is read back from the attributes that it adds to the label. -/
theorem markOf_markAttributes (name : String) (mark : Mark) :
    markOf (("label", name) :: markAttributes mark) = mark := by
  cases mark with
  | plain => rfl
  | red => rfl
  | dashed => rfl

@[simp]
theorem node?_nodeStatement (node : String × Mark) :
    (nodeStatement node).node? = some (node.1, node.1, node.2) := by
  simp [nodeStatement, Statement.node?, markOf_markAttributes]

@[simp]
theorem node?_edgeStatement (edge : Edge) : (edgeStatement edge).node? = none := rfl

@[simp]
theorem edge?_nodeStatement (node : String × Mark) : (nodeStatement node).edge? = none := rfl

@[simp]
theorem edge?_edgeStatement (edge : Edge) :
    (edgeStatement edge).edge? = some (edge.source, edge.target, edge.kind.label) := by
  simp [edgeStatement, Statement.edge?]

/-- The picture of a drawing: each node has its name as the label, and each edge its kind. -/
def Picture.ofDrawing (drawing : Drawing) : Picture where
  nodes := drawing.nodes.map fun node => (node.1, node.1, node.2)
  edges := drawing.edges.map fun edge => (edge.source, edge.target, edge.kind.label)

/-- The statements of a drawing give its picture. -/
theorem ofStatements_statementsOf (drawing : Drawing) :
    Picture.ofStatements (statementsOf drawing) = Picture.ofDrawing drawing := by
  have hnode : (Statement.setting "rankdir" "LR").node? = none := rfl
  have hedge : (Statement.setting "rankdir" "LR").edge? = none := rfl
  rw [Picture.ofStatements, Picture.ofDrawing, statementsOf, List.filterMap_cons_none hnode,
    List.filterMap_cons_none hedge]
  simp [List.filterMap_map, Function.comp_def]

/-- The tokens of a drawing are read to its statements. -/
theorem statements?_ended (drawing : Drawing) :
    statements? ([.word "digraph", .word "Dependencies", .sign '\x7b'] ++
      ended (sentencesOf drawing) ++ [.sign '\x7d']) = some (statementsOf drawing) := by
  rw [List.append_assoc]
  simp only [List.cons_append, List.nil_append, statements?]
  rw [sentences_ended (sentencesOf_free drawing)]
  simpa [sentences] using mapM_sentencesOf drawing

/-- Every drawing is read back. -/
theorem read?_render (drawing : Drawing) :
    read? drawing.render = some (Picture.ofDrawing drawing) := by
  rw [read?, tokens?_render, Option.bind_eq_bind, Option.bind_some, statements?_ended,
    Option.bind_eq_bind, Option.bind_some, ofStatements_statementsOf]

end Dot

/-- A drawing of a graph is read back: the nodes that are drawn, in order, each with its name as the
label and with its mark, and the edges that are drawn, in order, with their ends and kinds.  A node
is dashed if it is no file of the graph, and red if it is one on a cycle. -/
theorem Graph.dot_reads_back (graph : Graph) (focus : String) (withExternal : Bool) :
    Dot.read? (graph.dot focus withExternal) = some
      { nodes := (Drawing.select graph focus withExternal).1.map fun node =>
          (node, node,
            if node ∉ graph.nodes then .dashed
            else if ∃ cycle ∈ graph.cycles, node ∈ cycle then .red
            else .plain)
        edges := (Drawing.select graph focus withExternal).2.map fun edge =>
          (edge.source, edge.target, edge.kind.label) } := by
  rw [Graph.dot, Dot.read?_render]
  simp [Dot.Picture.ofDrawing, Drawing.ofGraph, Drawing.markOf, Function.comp_def]

end Dependency
end CodeAtlas
