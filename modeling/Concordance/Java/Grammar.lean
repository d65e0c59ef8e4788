import Concordance.Grammar.Rule
import Concordance.Text.Identifier

/-!
The grammar of Java as the library reads it. It is looser than the language: statements, methods and
several package declarations may stand at the top, and a constructor may have any name. What the
grammar accepts in two ways is decided by the levels below, by dynamic preference, or is kept apart
until one of the readings fails.
-/

namespace Concordance.Java

open Grammar
open Grammar.Rule

/-! ### Levels, from the loosest to the tightest -/

namespace Level

def assign : Int := 1
def declaration : Int := 2
def elementValue : Int := 2
def ternary : Int := 3
def or : Int := 4
def and : Int := 5
def bitOr : Int := 6
def bitXor : Int := 7
def bitAnd : Int := 8
def equality : Int := 9
def relation : Int := 10
def shift : Int := 11
def add : Int := 12
def mult : Int := 13
def cast : Int := 14
def unary : Int := 15

end Level

/-! ### Tokens -/

def lbrace : Rule := "\x7b"
def rbrace : Rule := "\x7d"

def charSet (s : String) : Rule := chars (CharSet.ofString s)

/-- Any character but these; no token holds NUL. -/
def notIn (s : String) : Rule := chars (CharSet.ofString ("\x00" ++ s)).compl

def digit : Rule := chars (CharSet.between '0' '9')

def hexDigit : Rule :=
  chars (CharSet.between '0' '9' ++ CharSet.between 'a' 'f' ++ CharSet.between 'A' 'F')

def octalDigit : Rule := chars (CharSet.between '0' '7')

/-- Digits in which underscores may stand between two. -/
def underscored (d : Rule) : Rule := sepBy1 "_" (many1 d)

def digits : Rule :=
  choice ["0", seq [chars (CharSet.between '1' '9'),
    opt (seq [opt "_", sepBy1 (many1 (charSet "_")) (many1 digit)])]]

def longSuffix : Rule := opt (choice ["l", "L"])

def floatSuffix : Rule := charSet "fFdD"

def sign : Rule := opt (choice ["-", "+"])

def exponent : Rule := seq [charSet "eE", sign, underscored digit]

def decimalFloat : Rule :=
  choice [
    seq [underscored digit, ".", opt (underscored digit), opt exponent, opt floatSuffix],
    seq [".", underscored digit, opt exponent, opt floatSuffix],
    seq [digits, charSet "eEpP", sign, underscored digit, opt floatSuffix],
    seq [digits, opt exponent, floatSuffix]]

def hexFloat : Rule :=
  seq [choice ["0x", "0X"],
    choice [seq [underscored hexDigit, opt "."], seq [opt (underscored hexDigit), ".", underscored hexDigit]],
    opt (seq [charSet "eEpP", sign, digits, opt floatSuffix])]

def quotedChar : Rule :=
  seq ["\x27",
    many1 (choice [notIn "\\\x27\n", seq [charSet "\\", notIn "\n"], charSet "\\" |>.cat (charSet "\n")]),
    "\x27"]

def escape : Rule :=
  seq ["\\", choice [
    chars (CharSet.ofString "xu\x00" ++ CharSet.between '0' '7').compl,
    seq [octalDigit, opt octalDigit, opt octalDigit],
    seq [charSet "x", hexDigit, hexDigit],
    seq [charSet "u", hexDigit, hexDigit, hexDigit, hexDigit],
    seq [charSet "u", charSet "\x7b", many1 hexDigit, charSet "\x7d"]]]

def stringText : Rule := many1 (notIn "\"\\")

def identifierChars : Rule :=
  seq [chars (CharSet.ofString "_$" ++ Identifier.start),
    many (chars (CharSet.ofString "_$¢" ++ Identifier.continuing))]

def blockComment : Rule :=
  seq ["/*",
    seq [many (notIn "*"), many1 (charSet "*"),
      many (seq [notIn "/*", many (notIn "*"), many1 (charSet "*")])],
    "/"]

/-! ### Pieces used by several rules -/

def identifier : Rule := ref "identifier"

/-- A name that is also a word of the language in some places. -/
def anyName : Rule := choice [ref "identifier", ref "_reserved_identifier"]

def typeIdentifier : Rule := shownAs "type_identifier" (ref "identifier")

def annotations : Rule := many (ref "_annotation")

def modifiers : Rule := opt (ref "modifiers")

def binary (level : Int) (operator : String) : Rule :=
  left level (seq [field "left" (ref "expression"), field "operator" operator,
    field "right" (ref "expression")])

def unary (operator : String) : Rule :=
  left Level.unary (seq [field "operator" operator, field "operand" (ref "expression")])

def moduleTargets : Rule :=
  opt (seq ["to", field "modules" (ref "_name"), many (seq [",", field "modules" (ref "_name")])])

/-! ### The rules -/

def literalRules : List (String × Rule) := [
  ("program", many (ref "_toplevel_statement")),
  ("_toplevel_statement", choice [ref "statement", ref "method_declaration"]),
  ("_literal", choice [
    ref "decimal_integer_literal", ref "hex_integer_literal", ref "octal_integer_literal",
    ref "binary_integer_literal", ref "decimal_floating_point_literal",
    ref "hex_floating_point_literal", ref "true", ref "false", ref "character_literal",
    ref "string_literal", ref "null_literal"]),
  ("decimal_integer_literal", token (seq [digits, longSuffix])),
  ("hex_integer_literal", token (seq [choice ["0x", "0X"], underscored hexDigit, longSuffix])),
  ("octal_integer_literal",
    token (seq [choice ["0o", "0O", "0"], underscored octalDigit, longSuffix])),
  ("binary_integer_literal",
    token (seq [choice ["0b", "0B"], underscored (charSet "01"), longSuffix])),
  ("decimal_floating_point_literal", token decimalFloat),
  ("hex_floating_point_literal", token hexFloat),
  ("true", "true"),
  ("false", "false"),
  ("character_literal", token quotedChar),
  ("string_literal", choice [ref "_string_literal", ref "_multiline_string_literal"]),
  ("_string_literal", seq ["\"",
    many (choice [ref "string_fragment", ref "escape_sequence", ref "string_interpolation"]), "\""]),
  ("_multiline_string_literal", seq ["\"\"\"",
    many (choice [shownAs "multiline_string_fragment" (ref "_multiline_string_fragment"),
      ref "_escape_sequence", ref "string_interpolation"]), "\"\"\""]),
  ("string_fragment", immediate (binds 1 stringText)),
  ("_multiline_string_fragment", choice [
    token stringText,
    token (seq [charSet "\"", many (choice [notIn "\"\\", seq [charSet "\\", charSet "\""]])])]),
  ("string_interpolation", seq ["\\\x7b", ref "expression", rbrace]),
  ("_escape_sequence", choice [
    binds 2 (immediate (seq ["\\", notIn "bfnrts\x27\"\\"])),
    binds 1 (ref "escape_sequence")]),
  ("escape_sequence", immediate escape),
  ("null_literal", "null")]

def expressionRules : List (String × Rule) := [
  ("expression", choice [
    ref "assignment_expression", ref "binary_expression", ref "instanceof_expression",
    ref "lambda_expression", ref "ternary_expression", ref "update_expression",
    ref "primary_expression", ref "unary_expression", ref "cast_expression",
    ref "switch_expression"]),
  ("cast_expression", binds Level.cast (choice [
    seq ["(", field "type" (ref "_type"), ")", field "value" (ref "expression")],
    seq ["(", sepBy1 "&" (field "type" (ref "_type")), ")",
      field "value" (choice [ref "primary_expression", ref "lambda_expression"])]])),
  ("assignment_expression", right Level.assign (seq [
    field "left" (choice [identifier, ref "_reserved_identifier", ref "field_access",
      ref "array_access"]),
    field "operator" (choice ["=", "+=", "-=", "*=", "/=", "&=", "|=", "^=", "%=", "<<=", ">>=",
      ">>>="]),
    field "right" (ref "expression")])),
  ("binary_expression", choice [
    binary Level.relation ">", binary Level.relation "<", binary Level.relation ">=",
    binary Level.relation "<=", binary Level.equality "==", binary Level.equality "!=",
    binary Level.and "&&", binary Level.or "||", binary Level.add "+", binary Level.add "-",
    binary Level.mult "*", binary Level.mult "/", binary Level.bitAnd "&", binary Level.bitOr "|",
    binary Level.bitXor "^", binary Level.mult "%", binary Level.shift "<<",
    binary Level.shift ">>", binary Level.shift ">>>"]),
  ("instanceof_expression", binds Level.relation (seq [
    field "left" (ref "expression"), "instanceof", opt "final",
    choice [
      seq [field "right" (ref "_type"), opt (field "name" anyName)],
      field "pattern" (ref "record_pattern")]])),
  ("lambda_expression", seq [
    field "parameters" (choice [identifier, ref "formal_parameters", ref "inferred_parameters",
      ref "_reserved_identifier"]),
    "->", field "body" (choice [ref "expression", ref "block"])]),
  ("inferred_parameters", seq ["(", commaSep1 anyName, ")"]),
  ("ternary_expression", right Level.ternary (seq [
    field "condition" (ref "expression"), "?", field "consequence" (ref "expression"), ":",
    field "alternative" (ref "expression")])),
  ("unary_expression", choice [unary "+", unary "-", unary "!", unary "~"]),
  ("update_expression", left Level.unary (choice [
    seq [ref "expression", "++"], seq [ref "expression", "--"],
    seq ["++", ref "expression"], seq ["--", ref "expression"]])),
  ("primary_expression", choice [
    ref "_literal", ref "class_literal", ref "this", identifier, ref "_reserved_identifier",
    ref "parenthesized_expression", ref "object_creation_expression", ref "field_access",
    ref "array_access", ref "method_invocation", ref "method_reference",
    ref "array_creation_expression", ref "template_expression"]),
  ("array_creation_expression", right 0 (seq [
    "new", annotations, field "type" (ref "_simple_type"),
    choice [
      seq [field "dimensions" (many1 (ref "dimensions_expr")),
        field "dimensions" (opt (ref "dimensions"))],
      seq [field "dimensions" (ref "dimensions"), field "value" (ref "array_initializer")]]])),
  ("dimensions_expr", seq [annotations, "[", ref "expression", "]"]),
  ("parenthesized_expression", seq ["(", ref "expression", ")"]),
  ("class_literal", dynamic 17 (seq [ref "_unannotated_type", ".", "class"])),
  ("object_creation_expression", choice [
    ref "_unqualified_object_creation_expression",
    seq [ref "primary_expression", ".", ref "_unqualified_object_creation_expression"]]),
  ("_unqualified_object_creation_expression", right 0 (seq [
    "new",
    choice [
      seq [annotations, field "type_arguments" (ref "type_arguments"), annotations],
      annotations],
    field "type" (ref "_simple_type"), field "arguments" (ref "argument_list"),
    opt (ref "class_body")])),
  ("field_access", seq [
    field "object" (choice [ref "primary_expression", ref "super"]),
    opt (seq [".", ref "super"]), ".",
    field "field" (choice [identifier, ref "_reserved_identifier", ref "this"])]),
  ("template_expression", seq [
    field "template_processor" (ref "primary_expression"), ".",
    field "template_argument" (ref "string_literal")]),
  ("array_access", seq [
    field "array" (ref "primary_expression"), "[", field "index" (ref "expression"), "]"]),
  ("method_invocation", seq [
    choice [
      field "name" anyName,
      seq [field "object" (choice [ref "primary_expression", ref "super"]), ".",
        opt (seq [ref "super", "."]), field "type_arguments" (opt (ref "type_arguments")),
        field "name" anyName]],
    field "arguments" (ref "argument_list")]),
  ("argument_list", seq ["(", commaSep (ref "expression"), ")"]),
  ("method_reference", seq [
    choice [ref "_type", ref "primary_expression", ref "super"], "::",
    opt (ref "type_arguments"), choice ["new", identifier]]),
  ("type_arguments", seq ["<", commaSep (choice [ref "_type", ref "wildcard"]), ">"]),
  ("wildcard", seq [annotations, "?", opt (ref "_wildcard_bounds")]),
  ("_wildcard_bounds", choice [seq ["extends", ref "_type"], seq [ref "super", ref "_type"]]),
  ("dimensions", right 0 (many1 (seq [annotations, "[", "]"]))),
  ("switch_expression", seq [
    "switch", field "condition" (ref "parenthesized_expression"),
    field "body" (ref "switch_block")]),
  ("switch_block", seq [lbrace,
    choice [many (ref "switch_block_statement_group"), many (ref "switch_rule")], rbrace]),
  ("switch_block_statement_group", left 0 (seq [
    many1 (seq [ref "switch_label", ":"]), many (ref "statement")])),
  ("switch_rule", seq [ref "switch_label", "->",
    choice [ref "expression_statement", ref "throw_statement", ref "block"]]),
  ("switch_label", choice [
    seq ["case", choice [ref "pattern", commaSep1 (ref "expression")], opt (ref "guard")],
    "default"]),
  ("pattern", choice [ref "type_pattern", ref "record_pattern"]),
  ("type_pattern", seq [ref "_unannotated_type", anyName]),
  ("record_pattern", seq [choice [identifier, ref "_reserved_identifier", ref "generic_type"],
    ref "record_pattern_body"]),
  ("record_pattern_body", seq ["(",
    commaSep (choice [ref "record_pattern_component", ref "record_pattern"]), ")"]),
  ("record_pattern_component", choice [ref "underscore_pattern",
    seq [ref "_unannotated_type", anyName]]),
  ("underscore_pattern", "_"),
  ("guard", seq ["when", ref "expression"])]

def statementRules : List (String × Rule) := [
  ("statement", choice [
    ref "declaration", ref "expression_statement", ref "labeled_statement", ref "if_statement",
    ref "while_statement", ref "for_statement", ref "enhanced_for_statement", ref "block", ";",
    ref "assert_statement", ref "do_statement", ref "break_statement", ref "continue_statement",
    ref "return_statement", ref "yield_statement", ref "switch_expression",
    ref "synchronized_statement", ref "local_variable_declaration", ref "throw_statement",
    ref "try_statement", ref "try_with_resources_statement"]),
  ("block", seq [lbrace, many (ref "statement"), rbrace]),
  ("expression_statement", seq [ref "expression", ";"]),
  ("labeled_statement", seq [identifier, ":", ref "statement"]),
  ("assert_statement", choice [
    seq ["assert", ref "expression", ";"],
    seq ["assert", ref "expression", ":", ref "expression", ";"]]),
  ("do_statement", seq ["do", field "body" (ref "statement"), "while",
    field "condition" (ref "parenthesized_expression"), ";"]),
  ("break_statement", seq ["break", opt identifier, ";"]),
  ("continue_statement", seq ["continue", opt identifier, ";"]),
  ("return_statement", seq ["return", opt (ref "expression"), ";"]),
  ("yield_statement", seq ["yield", ref "expression", ";"]),
  ("synchronized_statement", seq ["synchronized", ref "parenthesized_expression",
    field "body" (ref "block")]),
  ("throw_statement", seq ["throw", ref "expression", ";"]),
  ("try_statement", seq ["try", field "body" (ref "block"),
    choice [many1 (ref "catch_clause"), seq [many (ref "catch_clause"), ref "finally_clause"]]]),
  ("catch_clause", seq ["catch", "(", ref "catch_formal_parameter", ")",
    field "body" (ref "block")]),
  ("catch_formal_parameter", seq [modifiers, ref "catch_type", ref "_variable_declarator_id"]),
  ("catch_type", sepBy1 "|" (ref "_unannotated_type")),
  ("finally_clause", seq ["finally", ref "block"]),
  ("try_with_resources_statement", seq ["try", field "resources" (ref "resource_specification"),
    field "body" (ref "block"), many (ref "catch_clause"), opt (ref "finally_clause")]),
  ("resource_specification", seq ["(", sepBy1 ";" (ref "resource"), opt ";", ")"]),
  ("resource", choice [
    seq [modifiers, field "type" (ref "_unannotated_type"), ref "_variable_declarator_id", "=",
      field "value" (ref "expression")],
    identifier, ref "field_access"]),
  ("if_statement", right 0 (seq ["if", field "condition" (ref "parenthesized_expression"),
    field "consequence" (ref "statement"),
    opt (seq ["else", field "alternative" (ref "statement")])])),
  ("while_statement", seq ["while", field "condition" (ref "parenthesized_expression"),
    field "body" (ref "statement")]),
  ("for_statement", seq ["for", "(",
    choice [field "init" (ref "local_variable_declaration"),
      seq [commaSep (field "init" (ref "expression")), ";"]],
    field "condition" (opt (ref "expression")), ";",
    commaSep (field "update" (ref "expression")), ")", field "body" (ref "statement")]),
  ("enhanced_for_statement", seq ["for", "(", modifiers, field "type" (ref "_unannotated_type"),
    ref "_variable_declarator_id", ":", field "value" (ref "expression"), ")",
    field "body" (ref "statement")])]

def declarationRules : List (String × Rule) := [
  ("_annotation", choice [ref "marker_annotation", ref "annotation"]),
  ("marker_annotation", seq ["@", field "name" (ref "_name")]),
  ("annotation", seq ["@", field "name" (ref "_name"),
    field "arguments" (ref "annotation_argument_list")]),
  ("annotation_argument_list", seq ["(",
    choice [ref "_element_value", commaSep (ref "element_value_pair")], ")"]),
  ("element_value_pair", seq [field "key" anyName, "=", field "value" (ref "_element_value")]),
  ("_element_value", binds Level.elementValue (choice [
    ref "expression", ref "element_value_array_initializer", ref "_annotation"])),
  ("element_value_array_initializer", seq [lbrace, commaSep (ref "_element_value"), opt ",",
    rbrace]),
  ("declaration", binds Level.declaration (choice [
    ref "module_declaration", ref "package_declaration", ref "import_declaration",
    ref "class_declaration", ref "record_declaration", ref "interface_declaration",
    ref "annotation_type_declaration", ref "enum_declaration"])),
  ("module_declaration", seq [annotations, opt "open", "module", field "name" (ref "_name"),
    field "body" (ref "module_body")]),
  ("module_body", seq [lbrace, many (ref "module_directive"), rbrace]),
  ("module_directive", choice [
    ref "requires_module_directive", ref "exports_module_directive", ref "opens_module_directive",
    ref "uses_module_directive", ref "provides_module_directive"]),
  ("requires_module_directive", seq ["requires",
    many (field "modifiers" (ref "requires_modifier")), field "module" (ref "_name"), ";"]),
  ("requires_modifier", choice ["transitive", "static"]),
  ("exports_module_directive", seq ["exports", field "package" (ref "_name"), moduleTargets, ";"]),
  ("opens_module_directive", seq ["opens", field "package" (ref "_name"), moduleTargets, ";"]),
  ("uses_module_directive", seq ["uses", field "type" (ref "_name"), ";"]),
  ("provides_module_directive", seq ["provides", field "provided" (ref "_name"), "with",
    ref "_name", many (seq [",", field "provider" (ref "_name")]), ";"]),
  ("package_declaration", seq [annotations, "package", ref "_name", ";"]),
  ("import_declaration", seq ["import", opt "static", ref "_name",
    opt (seq [".", ref "asterisk"]), ";"]),
  ("asterisk", "*"),
  ("enum_declaration", seq [modifiers, "enum", field "name" identifier,
    field "interfaces" (opt (ref "super_interfaces")), field "body" (ref "enum_body")]),
  ("enum_body", seq [lbrace, commaSep (ref "enum_constant"), opt ",",
    opt (ref "enum_body_declarations"), rbrace]),
  ("enum_body_declarations", seq [";", many (ref "_class_body_declaration")]),
  ("enum_constant", seq [modifiers, field "name" identifier,
    field "arguments" (opt (ref "argument_list")), field "body" (opt (ref "class_body"))]),
  ("class_declaration", seq [modifiers, "class", field "name" identifier,
    opt (field "type_parameters" (ref "type_parameters")),
    opt (field "superclass" (ref "superclass")),
    opt (field "interfaces" (ref "super_interfaces")), opt (field "permits" (ref "permits")),
    field "body" (ref "class_body")]),
  ("modifiers", many1 (choice [ref "_annotation", "public", "protected", "private", "abstract",
    "static", "final", "strictfp", "default", "synchronized", "native", "transient", "volatile",
    "sealed", "non-sealed"])),
  ("type_parameters", seq ["<", commaSep1 (ref "type_parameter"), ">"]),
  ("type_parameter", seq [annotations, typeIdentifier, opt (ref "type_bound")]),
  ("type_bound", seq ["extends", ref "_type", many (seq ["&", ref "_type"])]),
  ("superclass", seq ["extends", ref "_type"]),
  ("super_interfaces", seq ["implements", ref "type_list"]),
  ("type_list", seq [ref "_type", many (seq [",", ref "_type"])]),
  ("permits", seq ["permits", ref "type_list"]),
  ("class_body", seq [lbrace, many (ref "_class_body_declaration"), rbrace]),
  ("_class_body_declaration", choice [
    ref "field_declaration", ref "record_declaration", ref "method_declaration",
    ref "compact_constructor_declaration", ref "class_declaration", ref "interface_declaration",
    ref "annotation_type_declaration", ref "enum_declaration", ref "block",
    ref "static_initializer", ref "constructor_declaration", ";"]),
  ("static_initializer", seq ["static", ref "block"]),
  ("constructor_declaration", seq [modifiers, ref "_constructor_declarator", opt (ref "throws"),
    field "body" (ref "constructor_body")]),
  ("_constructor_declarator", seq [field "type_parameters" (opt (ref "type_parameters")),
    field "name" identifier, field "parameters" (ref "formal_parameters")]),
  ("constructor_body", seq [lbrace, opt (ref "explicit_constructor_invocation"),
    many (ref "statement"), rbrace]),
  ("explicit_constructor_invocation", seq [
    choice [
      seq [field "type_arguments" (opt (ref "type_arguments")),
        field "constructor" (choice [ref "this", ref "super"])],
      seq [field "object" (ref "primary_expression"), ".",
        field "type_arguments" (opt (ref "type_arguments")),
        field "constructor" (ref "super")]],
    field "arguments" (ref "argument_list"), ";"]),
  ("_name", choice [identifier, ref "_reserved_identifier", ref "scoped_identifier"]),
  ("scoped_identifier", seq [field "scope" (ref "_name"), ".", field "name" identifier]),
  ("field_declaration", seq [modifiers, field "type" (ref "_unannotated_type"),
    ref "_variable_declarator_list", ";"]),
  ("record_declaration", seq [modifiers, "record", field "name" identifier,
    opt (field "type_parameters" (ref "type_parameters")),
    field "parameters" (ref "formal_parameters"),
    opt (field "interfaces" (ref "super_interfaces")), field "body" (ref "class_body")]),
  ("annotation_type_declaration", seq [modifiers, "@interface", field "name" identifier,
    field "body" (ref "annotation_type_body")]),
  ("annotation_type_body", seq [lbrace,
    many (choice [ref "annotation_type_element_declaration", ref "constant_declaration",
      ref "class_declaration", ref "interface_declaration", ref "enum_declaration",
      ref "annotation_type_declaration", ";"]), rbrace]),
  ("annotation_type_element_declaration", seq [modifiers, field "type" (ref "_unannotated_type"),
    field "name" anyName, "(", ")", field "dimensions" (opt (ref "dimensions")),
    opt (ref "_default_value"), ";"]),
  ("_default_value", seq ["default", field "value" (ref "_element_value")]),
  ("interface_declaration", seq [modifiers, "interface", field "name" identifier,
    field "type_parameters" (opt (ref "type_parameters")), opt (ref "extends_interfaces"),
    opt (field "permits" (ref "permits")), field "body" (ref "interface_body")]),
  ("extends_interfaces", seq ["extends", ref "type_list"]),
  ("interface_body", seq [lbrace,
    many (choice [ref "constant_declaration", ref "enum_declaration", ref "method_declaration",
      ref "class_declaration", ref "interface_declaration", ref "record_declaration",
      ref "annotation_type_declaration", ";"]), rbrace]),
  ("constant_declaration", seq [modifiers, field "type" (ref "_unannotated_type"),
    ref "_variable_declarator_list", ";"]),
  ("_variable_declarator_list", commaSep1 (field "declarator" (ref "variable_declarator"))),
  ("variable_declarator", seq [ref "_variable_declarator_id",
    opt (seq ["=", field "value" (ref "_variable_initializer")])]),
  ("_variable_declarator_id", seq [
    field "name" (choice [identifier, ref "_reserved_identifier", ref "underscore_pattern"]),
    field "dimensions" (opt (ref "dimensions"))]),
  ("_variable_initializer", choice [ref "expression", ref "array_initializer"]),
  ("array_initializer", seq [lbrace, commaSep (ref "_variable_initializer"), opt ",", rbrace])]

def typeRules : List (String × Rule) := [
  ("_type", choice [ref "_unannotated_type", ref "annotated_type"]),
  ("_unannotated_type", choice [ref "_simple_type", ref "array_type"]),
  ("_simple_type", choice [ref "void_type", ref "integral_type", ref "floating_point_type",
    ref "boolean_type", typeIdentifier, ref "scoped_type_identifier", ref "generic_type"]),
  ("annotated_type", seq [many1 (ref "_annotation"), ref "_unannotated_type"]),
  ("scoped_type_identifier", seq [
    choice [typeIdentifier, ref "scoped_type_identifier", ref "generic_type"], ".", annotations,
    typeIdentifier]),
  ("generic_type", dynamic 10 (seq [choice [typeIdentifier, ref "scoped_type_identifier"],
    ref "type_arguments"])),
  ("array_type", seq [field "element" (ref "_unannotated_type"),
    field "dimensions" (ref "dimensions")]),
  ("integral_type", choice ["byte", "short", "int", "long", "char"]),
  ("floating_point_type", choice ["float", "double"]),
  ("boolean_type", "boolean"),
  ("void_type", "void"),
  ("_method_header", seq [
    opt (seq [field "type_parameters" (ref "type_parameters"), annotations]),
    field "type" (ref "_unannotated_type"), ref "_method_declarator", opt (ref "throws")]),
  ("_method_declarator", seq [field "name" anyName, field "parameters" (ref "formal_parameters"),
    field "dimensions" (opt (ref "dimensions"))]),
  ("formal_parameters", seq ["(",
    choice [ref "receiver_parameter",
      seq [opt (seq [ref "receiver_parameter", ","]),
        commaSep (choice [ref "formal_parameter", ref "spread_parameter"])]],
    ")"]),
  ("formal_parameter", seq [modifiers, field "type" (ref "_unannotated_type"),
    ref "_variable_declarator_id"]),
  ("receiver_parameter", seq [annotations, ref "_unannotated_type", many (seq [identifier, "."]),
    ref "this"]),
  ("spread_parameter", seq [modifiers, ref "_unannotated_type", "...", annotations,
    ref "variable_declarator"]),
  ("throws", seq ["throws", commaSep1 (ref "_type")]),
  ("local_variable_declaration", seq [modifiers, field "type" (ref "_unannotated_type"),
    ref "_variable_declarator_list", ";"]),
  ("method_declaration", seq [modifiers, ref "_method_header",
    choice [field "body" (ref "block"), ";"]]),
  ("compact_constructor_declaration", seq [modifiers, field "name" identifier,
    field "body" (ref "block")]),
  ("_reserved_identifier", choice [
    binds (-3) (shownAs "identifier" (choice ["open", "module", "record", "with", "sealed"])),
    shownAs "identifier" "yield"]),
  ("this", "this"),
  ("super", "super"),
  ("identifier", token identifierChars),
  ("line_comment", token (binds 0 (seq ["//", many (notIn "\n")]))),
  ("block_comment", token (binds 0 blockComment))]

/-- Java, read loosely. -/
def grammar : Description where
  rules := literalRules ++ expressionRules ++ statementRules ++ declarationRules ++ typeRules
  blanks := CharSet.ofRanges [(9, 13), (32, 32)]
  extras := ["line_comment", "block_comment"]
  supertypes := ["expression", "declaration", "statement", "primary_expression", "_literal",
    "_type", "_simple_type", "_unannotated_type", "module_directive"]
  inlined := ["_name", "_class_body_declaration", "_variable_initializer"]
  word := "identifier"

end Concordance.Java
