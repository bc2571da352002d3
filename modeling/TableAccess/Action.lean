/-!
# Actions

What a screen reader can ask a node to do. The nodes of a table only read, so no action has an
effect; its name is told.
-/

namespace TableAccess

/-- What a node can be asked to do. -/
inductive Action where
  | click
  | focus
  | blur
  | collapse
  | expand
  | customAction
  | decrement
  | increment
  | hideTooltip
  | showTooltip
  | replaceSelectedText
  | scrollDown
  | scrollLeft
  | scrollRight
  | scrollUp
  | scrollIntoView
  | scrollToPoint
  | setScrollOffset
  | setTextSelection
  | setSequentialFocusNavigationStartingPoint
  | setValue
  | showContextMenu
deriving DecidableEq, Repr

namespace Action

/-- All actions. -/
def all : List Action :=
  [.click, .focus, .blur, .collapse, .expand, .customAction, .decrement, .increment, .hideTooltip,
    .showTooltip, .replaceSelectedText, .scrollDown, .scrollLeft, .scrollRight, .scrollUp,
    .scrollIntoView, .scrollToPoint, .setScrollOffset, .setTextSelection,
    .setSequentialFocusNavigationStartingPoint, .setValue, .showContextMenu]

/-- The name of an action. -/
def name : Action → String
  | .click => "Click"
  | .focus => "Focus"
  | .blur => "Blur"
  | .collapse => "Collapse"
  | .expand => "Expand"
  | .customAction => "CustomAction"
  | .decrement => "Decrement"
  | .increment => "Increment"
  | .hideTooltip => "HideTooltip"
  | .showTooltip => "ShowTooltip"
  | .replaceSelectedText => "ReplaceSelectedText"
  | .scrollDown => "ScrollDown"
  | .scrollLeft => "ScrollLeft"
  | .scrollRight => "ScrollRight"
  | .scrollUp => "ScrollUp"
  | .scrollIntoView => "ScrollIntoView"
  | .scrollToPoint => "ScrollToPoint"
  | .setScrollOffset => "SetScrollOffset"
  | .setTextSelection => "SetTextSelection"
  | .setSequentialFocusNavigationStartingPoint => "SetSequentialFocusNavigationStartingPoint"
  | .setValue => "SetValue"
  | .showContextMenu => "ShowContextMenu"

/-- The action with a name. -/
def ofName? (s : String) : Option Action := all.find? (·.name == s)

theorem mem_all (a : Action) : a ∈ all := by cases a <;> decide

end Action

end TableAccess
