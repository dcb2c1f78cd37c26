import NotebookCell.Script.LexicalError

/-!
# Syntax faults

Why a text is no module or no script, and where. `SyntaxError.message` holds all wordings.
-/

namespace NotebookCell.Script

inductive SyntaxError where
  /-- another token stands where the given one has to be -/
  | expected (wanted got : String)
  /-- the token begins nothing that may stand there -/
  | unexpected (got wanted : String)
  | unexpectedEnd
  | expressionExpected
  | identifierExpected
  | semicolonRequired
  | semicolonOrEndExpected
  | nestingTooDeep
  /-- the characters of a token or of a comment are at fault -/
  | lexical (error : LexicalError)
  | unknownRegexFlags
  | repeatedRegexFlag (flag : Char)
  | spaceAfterHash
  -- identifiers
  | reservedInStrict (name : String)
  | awaitAsIdentifier
  | bindsEvalOrArguments
  | argumentsInField
  -- expressions
  | exponentOfUnary
  | mixedCoalescing
  | notSimpleTarget
  | cannotAssign
  | invalidTarget
  | notAPattern
  | initializedProperty
  | optionalProperty
  | emptyParentheses
  | spreadInParentheses
  | lineBreakBeforeArrow
  | arrowNotAllowed
  | deleteOfIdentifier
  | newTargetOutsideFunction
  | optionalConstructor
  | optionalTemplate
  | superNotAllowed
  | superCallNotAllowed
  | optionalSuperCall
  | importNotAllowed
  | importMetaInScript
  | awaitInFunction
  | awaitInParameters
  | awaitStar
  | topLevelAwaitInScript
  | yieldInParameters
  -- patterns and parameters
  | restNotLast
  | restParameterNotLast
  | restWithDefault
  | commaAfterRest
  | restNotIdentifier
  | restInSetter
  | getterParameters
  | setterParameters
  -- declarations
  | constWithoutInit
  | patternWithoutInit
  | trailingCommaInDeclaration
  | declarationNotAllowed
  | usingNotEnabled
  | usingWithoutInit
  | usingPattern
  | useStrictWithPatterns
  -- classes
  | repeatedConstructor
  | constructorAccessor
  | constructorGenerator
  | constructorAsync
  | constructorField
  | staticConstructor
  | modifierNotAllowed
  | hiddenConstructor
  | repeatedExtends
  -- statements
  | breakOutside
  | breakUnknownLabel
  | continueOutside
  | continueUnknownLabel
  | repeatedLabel (label : String)
  | labelledFunctionInStrict
  | labelledGenerator
  | repeatedDefault
  | lineBreakAfterThrow
  | returnOutside
  | withInStrict
  | severalEachBindings
  | initializerInEachHead
  | awaitWithoutOf
  | asyncOf
  -- modules
  | moduleSyntaxInScript
  | stringBinding (value : String)
  | exportedString
  | exportedReserved (name : String)
  deriving DecidableEq, Repr

def SyntaxError.message : SyntaxError → String
  | expected wanted got => "Expected '" ++ wanted ++ "', got '" ++ got ++ "'"
  | unexpected got wanted => "Unexpected token `" ++ got ++ "`. Expected " ++ wanted
  | unexpectedEnd => "Unexpected eof"
  | expressionExpected => "Expression expected"
  | identifierExpected => "Expected ident"
  | semicolonRequired => "Expected a semicolon"
  | semicolonOrEndExpected => "Expected ';', '\x7d' or <eof>"
  | nestingTooDeep => "nested too deeply"
  | lexical error => error.message
  | unknownRegexFlags => "Unknown regular expression flags."
  | repeatedRegexFlag flag =>
    "Duplicated regular expression flag '" ++ String.singleton flag ++ "'."
  | spaceAfterHash => "Unexpected space between # and identifier"
  | reservedInStrict name => "`" ++ name ++ "` cannot be used as an identifier in strict mode"
  | awaitAsIdentifier => "`await` cannot be used as an identifier in an async context"
  | bindsEvalOrArguments =>
    "'eval' and 'arguments' cannot be used as a binding identifier in strict mode"
  | argumentsInField => "'arguments' is only allowed in functions and class methods"
  | exponentOfUnary => "'**' cannot be applied to unary/await expression."
  | mixedCoalescing =>
    "Nullish coalescing operator(??) requires parens when mixing with logical operators"
  | notSimpleTarget =>
    "The left-hand side of an assignment expression must be a variable or a property access."
  | cannotAssign => "Cannot assign to this"
  | invalidTarget => "Invalid assignment target"
  | notAPattern => "Not a pattern"
  | initializedProperty => "assignment property is invalid syntax"
  | optionalProperty => "An object member cannot be declared optional"
  | emptyParentheses => "Parenthesized expression cannot be empty"
  | spreadInParentheses => "Parenthesized expression cannot contain spread operator"
  | lineBreakBeforeArrow => "Unexpected line break between arrow head and arrow"
  | arrowNotAllowed => "An arrow function is not allowed here"
  | deleteOfIdentifier => "'delete' cannot be called on an identifier in strict mode"
  | newTargetOutsideFunction =>
    "'new.target' is only allowed in the body of a function declaration, function expression, " ++
      "or class."
  | optionalConstructor => "Constructor in/after an optional chaining is not allowed."
  | optionalTemplate => "Tagged template literal is not allowed in optional chain."
  | superNotAllowed => "Invalid access to super"
  | superCallNotAllowed => "Invalid `super()`"
  | optionalSuperCall => "Super call cannot be optional"
  | importNotAllowed => "Import is not allowed here"
  | importMetaInScript => "'import.meta' cannot be used outside of module code."
  | awaitInFunction => "await isn't allowed in non-async function"
  | awaitInParameters => "`await` expressions cannot be used in a parameter initializer."
  | awaitStar => "await* has been removed from the async functions proposal. Use Promise.all() instead."
  | topLevelAwaitInScript => "top level await is only allowed in module"
  | yieldInParameters => "'yield' cannot be used as a parameter within generator"
  | restNotLast => "Rest element must be final element"
  | restParameterNotLast => "A rest parameter must be last in a parameter list"
  | restWithDefault => "A rest parameter cannot have an initializer"
  | commaAfterRest => "Trailing comma isn't permitted after a rest element"
  | restNotIdentifier => "`...` must be followed by an identifier in declaration contexts"
  | restInSetter => "Rest pattern is not allowed in setter"
  | getterParameters => "A `get` accessor cannot have parameters"
  | setterParameters => "A `set` accessor must have exactly one parameter"
  | constWithoutInit => "'const' declarations must be initialized"
  | patternWithoutInit => "Destructuring bindings require initializers"
  | trailingCommaInDeclaration => "Trailing comma is not allowed"
  | declarationNotAllowed => "Declaration is not allowed"
  | usingNotEnabled =>
    "Using declaration is not enabled. Set jsc.parser.explicitResourceManagement to true"
  | usingWithoutInit => "Using declaration requires initializer"
  | usingPattern => "Using declaration only allows identifiers"
  | useStrictWithPatterns =>
    "Illegal 'use strict' directive in function with non-simple parameter list."
  | repeatedConstructor => "A class can only have one constructor"
  | constructorAccessor => "Class constructor can't be an accessor."
  | constructorGenerator => "A constructor cannot be generator"
  | constructorAsync => "A constructor cannot be async"
  | constructorField => "Classes may not have a non-static field named 'constructor'"
  | staticConstructor => "'static' modifier cannot appear on a constructor declaration"
  | modifierNotAllowed => "Modifiers cannot appear here"
  | hiddenConstructor => "Classes can't have a private field named '#constructor'."
  | repeatedExtends => "`extends` clause already seen."
  | breakOutside =>
    "A 'break' statement can only be used within an enclosing iteration or switch statement"
  | breakUnknownLabel =>
    "A 'break' statement can only jump to a label of an enclosing statement"
  | continueOutside =>
    "A 'continue' statement can only jump to a label of an enclosing iteration statement"
  | continueUnknownLabel => "Jump target cannot cross function boundary"
  | repeatedLabel label => "Label " ++ label ++ " is already declared"
  | labelledFunctionInStrict => "Function cannot be labelled in strict mode"
  | labelledGenerator => "Generator or async function cannot be labelled"
  | repeatedDefault => "A switch block cannot have multiple defaults"
  | lineBreakAfterThrow => "LineBreak cannot follow 'throw'"
  | returnOutside => "Return statement is not allowed here"
  | withInStrict => "With statement are not allowed in strict mode"
  | severalEachBindings => "Expected one variable binding"
  | initializerInEachHead => "Unexpected initializer in for in/of loop"
  | awaitWithoutOf => "for await syntax is valid only for for-of statement"
  | asyncOf => "The left-hand side of a `for...of` statement may not be `async`"
  | moduleSyntaxInScript => "'import', and 'export' cannot be used outside of module code"
  | stringBinding value =>
    "A string literal cannot be used as an imported binding.\n- Did you mean `import \x7b \"" ++
      value ++ "\" as foo \x7d`?"
  | exportedString => "A string literal cannot be used as an exported binding without `from`."
  | exportedReserved name => "`" ++ name ++ "` cannot be used without `from` clause"

/-- An error and the position at which its text begins. -/
structure Fault where
  position : Nat
  error : SyntaxError
  deriving DecidableEq, Repr

end NotebookCell.Script
