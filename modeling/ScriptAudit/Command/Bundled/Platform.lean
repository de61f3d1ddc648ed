import ScriptAudit.Command.Bundled.Shape

/-! Platform data, mutexes, touch and menus. -/
namespace ScriptAudit.Bundled

def platformCommands : List Command :=
  [action 0x0DD0 "get_label_addr" [pointer, outOwn],
   action 0x0DD1 "get_func_addr_by_cstr_name" [any, outOwn],
   action 0x0DD2 "context_call_func" [any],
   action 0x0DD3 "context_set_reg" [any, any],
   action 0x0DD4 "context_get_reg" [any, outOwn],
   action 0x0DD5 "get_platform" [outOwn],
   action 0x0DD6 "get_game_version" [outOwn],
   action 0x0DD7 "get_image_base" [outOwn],
   action 0x0DD8 "read_mem_addr" [any, any, any, outOwn],
   action 0x0DD9 "write_mem_addr" [any, any, any, any],
   action 0x0DDA "get_module_base" [any, outOwn],
   action 0x0DDB "search_module_symbol" [any, any, outOwn],
   action 0x0DDC "set_mutex_var" [any, any],
   action 0x0DDD "get_mutex_var" [any, outOwn],
   action 0x0DDE "get_ped_pointer_by_name" [any, outOwn],
   action 0x0DE0 "get_touch_point_state" [any, outOwn],
   action 0x0DE1 "get_touch_slide_state" [any, any, any, outOwn],
   action 0x0DE2 "get_menu_button_state" [outOwn],
   action 0x0DE3 "get_menu_button_pressed" [outOwn],
   condition 0x0DE4 "swipe" [any, any, any, any, any, any],
   condition 0x0DE5 "get_touch_point_state_in_rect" [any, any, any, any, any, any],
   condition 0x0DE6 "is_widget_pressed" [any],
   condition 0x0DE7 "is_widget_released" [any],
   condition 0x0DE8 "is_widget_double_tapped" [any],
   condition 0x0DE9 "is_widget_swiped" [any, any],
   action 0x0DEA "create_menu" [string, any, any, any, any, outOwn],
   action 0x0DEB "delete_menu" [any],
   action 0x0DEC "add_menu_item" [any, string],
   action 0x0DED "get_menu_selected_item" [any, outOwn],
   action 0x0DEE "set_menu_active" [any, any],
   action 0x0DEF "get_menu_item_text" [any, any, outOwn],
   action 0x0DF0 "set_menu_item_enabled" [any, any, any],
   condition 0x0DF1 "is_menu_active" [any],
   action 0x0DF2 "get_menu_title" [any, outOwn],
   action 0x0DF3 "set_menu_title" [any, string],
   action 0x0DF4 "get_menu_item_count" [any, outOwn],
   action 0x0DF5 "clear_menu" [any],
   action 0x0DF6 "set_menu_position" [any, any, any]]

end ScriptAudit.Bundled
